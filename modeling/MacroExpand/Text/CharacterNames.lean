import MacroExpand.Text.Lines
import MacroExpand.Text.CodeTable

/-!
# Names of characters

The names of characters (Unicode 14) for Latin, Greek, Cyrillic, Hebrew, Arabic, Devanagari, Thai and
the kana, for punctuation, symbols and pictures, and for syllables and ideographs whose names follow
from their codes.

A row of the table begins with a code and a colon unless it is the next code, and with the numbers of
words that the name begins and ends with like the one in front of it, if there are any.
-/

set_option autoImplicit false

namespace MacroExpand

def characterNameData : String :=
  "qK2Jd^!rBI^gzydApiNO6^3XN<0rLF@8WWRwWK%xwTAPm*wUKAKTUYuW:uvSbLo~?<BC<KZq3C4%E<dgNY3D[x*AFqMCf&w8NkTrF3|D!xrLq~2s]DXb
 N2+up0AT|)v+tnQ[)cQWkpc,UQ7gOBB;qG7P4g~^[n3.u9%@m:gf.fJdnc(Wu)<Dk^GLJMc;F+]Q(DEmrPsjHu63:<i~5,@OTu03B7r%a]v%zv*.6:l4FF
 e2YyI3i<!.kuj|d*<9BM5CEq|:)s@90dXyXTtdN:gwidGg4]CTxWAR7=En!%cI*q[!gY_>tZdY@;L=b%Y%U+fwgAXHo;<9.3V%YoLBdy%=F~4uzR8XS%CD
 9DzN[<j6Uv[G(Abx2iA^~8_F%8[xhSGE,6Kr1bd^(,:3y[R?LEIUH5N.s~pWR+,iV,Vu*cTaO4+_D7U1BdK@eb&,d]~@@vOUy7)A:]i;,omCmeuSQFC%Fj
 LDb]Es;mh,j@G:IQHmb>H@PvEy7YIAk5U8MXAae%FT]5LW9Nq;rd0|Z]v9?JSIX3<IOyur=%0GzFTn^W%[(Hq&Nr9MEuqC_fp>C0,+3.Vb(*naB|;6M]a+
 ,tb*Ar!(>i9tDGgvj:*F)LlcPrQSE3I;fIa2DP^:bKDtK)3<3*UrD:^8?%kDKy_e~kCoI!<BEDs|tUcu^>B<gkPaGw,T4Qyv2cqGr8L;4)D:^Rqdh:1dE:
 T4)Mj3~rm@)L3@DPXJQ2>J0:<)x)XJ!*DzuhU|i&<*ws.:00T.a$?Kstlurae4kETIo^W*:)~IEZDd$DTYp[S~FEp.546=BS$&uj[Xwt[CQHyW+~ek4,bD
 Zvw@aMrFMLR%F]hTxL=s!MH]DsfC[,:rmwx,YV9lY@+ZY3P!KJQh=rs9WlZaITemR_Un)%7w.O0Bqj?K9!f(WGlFX%DmPzypZg;LX8B=j*hXaNmK=Dii^^
 Csdy=oKVN,mr8:o9=CsJ0at?h4P&1$=$LUy$TOLS)E_*EuLUdo,_0=X0ZP8M:hDWuW3^Zi51zr@a@&=uJsGFASn%0QSC?;>Bmv6[$xf,h@R>FKfnQvTK~b
 UEcyl^Lsekwg96@ps|i|L3XKy1w@0KQ|_nwF20;<!Q?aYMLtZ25JRYB8ds6W:JA@P?^xqZ[pzlS2ea$]@82^mw+Em&=]0~r2?Rs%>sRKOv9+HMF&[FcGy&
 f@ZlUW:[GmIAFpsu_^~^ZDqxU2K0V.!Ud(yslDq,y:)&P~I+*8[SR]HviA:1>fkzLn@wFWZsFa(o%?|PdilDHQjbYd@zjf~ZI7mcM,u]4,8@0@TV)6a46^
 DBva69I!hpb[!8Bhyc+8W+&R8pic3uS4%nl|H?r4*$b*JgTEuwp~E%q%Zz^n&sgB:y<1!tRl[_!MUhC10m|1@1ahS2MfFHh2xQ[!>66o9=?jIbq[DV316j
 U(Mvu&g.|?.@,FVvyjnTYiEtHk.t)EZHEn+F[V:h7QI^:M04q*K[_!3D%2or$.B!!EfyM>Yjrhmbcq:~Ve&I]a;d*(,2wj+_dUWDyRk0|=l1)<y4S_R$_@
 44PE.:@e4[s,t66)=vdqXGUi:6|3s6DmUwZ:*z^6<%SEW[qfFsrU,jJ1,P(d0KZLO+Suo4SU0DC?[hvl1;n$aj*NO0)?xx.P?Rd*ud9;3|e^4MG&^A*hGM
 ?mV;lqbs9(,?2i&^C|4|:wRO7ASqb2c0IM.GWMkRgU:a>.[SII013cN5S;ZW1,+Jmw3SCYcaohz@2vKP70ceNbvLPDB1>8p]%%VVfq<uDI?ZhI,Bi%_XD1
 AMHZE3x(9j?<0RY.;QtDu1_FEeBs5DO]MR.(6Z[j**e,rc~ul(zhSuJ;O;d8Z.+69w5eTYN>&0*Z9G,T($qwWW&VXDgtejcS,w)jdC%xl@z?6&3|,=P!J4
 7~HskG;D>5[94ImgN8c<*o58]G$4eM[1,>x+:x1+mQG2^Tow3+pVn+3d$AMQ9q;pZ(,97;WX$fPuAmIqtt5U9:?t3=&Q(2FX+q!g=uQn!mFM]a5i_&C1Go
 hgG1TqNbx[7B&GSb_Zv;6xW6Xht@.semI6eCHA4*5*cpU6^=$q%X5Wz[,ruWJee>>p<cq(7d1QjrAx?2FpPHllAj44LFRJu&n.V8uP_>EYxfE0Xg3HYle|
 D0qIZpLUc_?8bIgpG<7kD3Gv2K.ce+[[I.a5OOVGt?$ZJ2L@EP@t;bxQc%]>3~3H:=p%sjJcpcZMFJP[6D6Va]JyKgmaz3L%5|Rp[gtmD4U=B<6qROG=AP
 1%rTs3UTuZ!momzj~IY9clin8I3y&*[b@[j<]ztcUE*pGXJ4AgOHWTF6g6I]VSsda,gw4rHh5eNkCSSv[Xmib*cl:yVA4T978gka0]%[mN3gRQcDh$+itA
 7Pm+<uGa1>eDDS,D7+%a?^[FdNF+L32bexYS6J?E&efE0R?HyG@cTH%8T2w,tGNd5oaf+mH)lo)0dnM0Lp1tA6u&IZ.[vOHWU$i7TY()S,7Z0b.%T=Hq@E
 =IE&%oERyN0&?rg^Zq?(@7be!R9za7UFse[|aNwAWSp6H.%tLZFVJYZ&hQi;wnaRYI=^$n*^|;b;3&7nrp1ngJMxpSPA8YX$,wX^0fGUz:qQpFWwqImq:v
 _)5_y$AT,FC:svk+cNPO(n>D7KA_WLP*tv!9JXrFEnfiM[$j,>yE_!j1B>C^f+)*RNCgZWQNt;,wYM;i7X.^);^x0jaxFQ(y]Gl$gr%HOK.lk~NB8dSD$8
 ixJc=cjV)3MMphJwQrjSEqd8q<vKs$ggZG*MnjbkYXMr=$+2PyuHYj+PTgSovUc[ZgON@maA@S&2;NV_.L2@t6aKgdBF@psCZ,@baqEV^Qh.RD>K4kX!HU
 &Ga)0Gedr@FbSFiWBLAGin$GdhyApsf$fN2EYNqyZ~@|.!MN86iLigjbG_d+HdbE9]&Z0ns,dp|lc5yO4Sd&~)Q]KD5T1nCZydAJOK=c&F9gNMcvfOF@Y@
 i6gjN,l(cQ9@XIlb[&Q&5sTd6w~eF_p:D6r&x^b.*D%dnv0I5rM>cP3]|24&zGysD?+,IZ^LMW]%PDL8=Gpp9t[+v[,:QN=qv!.Of,uKQ+7UJl4_qGRV.!
 8t_QBBtejO7Ir~1hvvMAKIMH[5mbY5X+y5qqDnLfCE:BBRPLJMK%8c<=<[ma5AT2Ur$,I>QAtn_eENtT^n[PC|DzvBa=ZQVlX:Q@tl4+KfoS),bFzJuBD,
 n7MOqDrDtF5=S]&^Bx49NrVtvTm,H1QyET^;aY^^j*ffdcMP)$QnyyZ2)cTST$X(0Ipyxgl*%]Wk^uN4LuChSzRO&j.qCjE53.<EV%!UDS$fh^G?(MS:YX
 F2XYLtw6M9.=x2:wWT^dC7;$TWmQwC$HA9BJDV]gR~7Kn(dI:WN,;_6Rd~BsfnUmjQVc.3C;[M0<suT2cHr*|xd)HY1TDQqlOq3QOr@q^9Of:)soVfJjMq
 5)GNmmdwm%2JH:c)ZsX$dhMLr[DDDitN3D0rO$6IaR&p_qrCS[4|uz2,=siRZI?kY;rFLk0!@o(L5vX5aZ@cF7C3Ws9ahQ+W0RK%jYkkVU98ZZW!F<4(I!
 NJAFzIzTKKqKr&FtYZ??7)9]%ke?v?wP*%5a*nM,OHi&_4CWPss1K=WfkWofT~m&T%,df0lS_sfyp0OA%sK&J|*yf9:Hx?JS$tX%qrB+jkNRFTBzv_V@9X
 UCnsU7IyNISOA3hlV~bPJ~9puhj!xeVzYF[?9|AO)*Rv_ZXDd5FsQxa+4fEU(]_w:LXr=%29K2QcufoRUa)TWx__zHL6eO6JVnBeb*Mps$B&M83BI!_0~V
 zDz?n|z25d:=mo|rO5TU~KGb^@+~brtlk+<sjXRnJ&OJZf=3[Rg@~)x+3P?ofXJwa%)r7n$:vSdvDw?>9LmD@jCje5>Te:N[IP<GV:Uo&qc]w()I6W<@9V
 LcRpCo^lBllb2ItOI;,?09o68ty3?3];&&;CE<rsOJIp[Z1jg*AEZ:51n=A8^u$Y(X,:=5;$zCR<)AHQ=WxALUVD@kff1w0a|xx7$1(BdODXDZ25;aTX5%
 k);D7MV9oH7+7oNb+JRFXjKSw)y(QOoz0mhmF8P1tZodR@R5ZSQWXPIvEc,e1ahzRs5pWUoK0<S(j9hGnCvZ7$w_x4uC1U6SEnbMLZu!LcDBRI2rVR.$H.
 ^_fA7eJenY(+@Xcn]69Ynh<5jAu%Mhn*%b~^3Yo@0!ILWjn!c$dJx;puZ2aHAX5zsU3dJuc~cG*B>$Oq?dPL4U3GE>vdxz+kQM)Wd(Vi@p@WTEjdF144!k
 =+<HXCP(sbzEYn<5MDf,|;df=d@wqHsK3RpNlj[9S,RwIypn,Wk]NX$zh2Gns&9m[uq.YZw&5&I+bc|JwEhL3V^Yd_ljg79sh0I,W)~y%C?%RW_s<jsNOs
 Q7*92q$ztrHIHGTheHvOzn$bv*BTE6@$x7v_ZA(bQ^TX4NPDnDqz2TP$vNL<UXR@MRE7CU?rU72EVODb.u5U~RJ<CFK(X.eZ_k9x;l(%O6EPb+BPv+?5MU
 j9i6VVrpBqFjK27PiyTYOH:<tBEvR4bNS^!o*3$J=sbTb]0[DdaZ!Xt0&NV.oec7H@,wZPVSBpMH%Dxoo.qCO%f,oz|s]?(50e6>9ri*hPfmh3=>jHsDZW
 ?n*)6:V~p@MNu?![sYT=06_3ob3;$PVwRy]0.;K13P~%3edh$yxBwxa<4t;n,)8KARe+JO5:i@%3jbu^1pVDLtz1RrSWQodsY;TWgpaE9]?IXuf0QWfoKE
 GAo]@j^LGQXlsRFdN6XX3Vy:)n~sy?CkMKZo5wmLq|DmDIk4OAa6+nJYd$&%ZVFp=<K7%tL%!?VSclBY*QY,ru?!;8Bi[Iz,O+r?NmZ3_jso&;a<x)v3L<
 :^MiDQ4WggG1lR0=6,u)(^>)%jzjn6XqhV_zqce=,cPUGY@deMV2[6_!5vED)bK)69XIf+S|AOi9>fvuS@>nV>Dh;.8gPy4,Yr&^viS?GM%d$2!FwH3t^2
 RiW4tLBQOGotp;@WdXCOf6XM~rVA.pX1UtBV>_@:Xp9G3P.)E*M0vsLihLp]r_yKv]uuTnF>bu&Tp>*3fc+AiDpa8OPmyp60yNCE+=7)mqit%Aflhp3NN.
 Wm.__$|H6hn6:5J>v^ex|Av^%E?sgY$0G0+:(O8d[(Fv+,1=_FX2?*AjFmcs|K%$F7JOn33y1Uu9QWjA(<+uBNCrVL>q5<!|ou92]k_gZ]?H,[y9:U]D4W
 rbRQtNoT6=+fdI?v1E8O&&&%i^!Nt*ImDYoGYf,n1[P2%WC,Kj7M7.Yx:yltN5YB)&0KntUe65rQ1hk4)p2he:X_*od<Fsc=Mc!;j$EXv:?fh6o^a;U$Hd
 Y^AYc%=@InGG=*M0qfC1K3M?z_1F<3<N?(|+r,Xh7:IXFI)k<]Bi3QsG=KwV,NH@dLJ=2&q%Fo$aoqY?;F)GD:EkTLPM!!fD2^EQDx<f[6J1@Dp+lF7oQ(
 *Z$1nS!@??C59wN_&@R80MqS,cD2[haZe]B$ivO!$&!8[TA^PdehM@V4T.xjV8,^Wq[Fod>PxP=%j89ZMYqqy*qy@fdYDnl+@4fcB02dP3rq|?Qr[(eMdP
 xe?D:eq?9J_4o4utihRPBJq;(mP1sEigs)5a7kSj1N<jRE3(NZK$B@^@DR*BR?NwKt,DG~%f3*6U;%;U!Tr=%KeR6PE%,Un5jrKkyv%NG08J7UI<hhmslT
 zok_8!5?xpQ3]?,Vy:q~1+39]96@k+ff3eS1r$@3cP)cY5mK1BkzH?PnTk?b]%85UmnRqk.eqe>zji%^_4H.XRtVv6yJ8=!0br!Wirl7<=_a%*4NS(a!X|
 XVP7v>n_~S^C$0WWb1O<Uj&jUnLm&8.MvrJ,2YexHMKWdXwJH=>;XxL)+%ufu4MTGx3SctSPpJ>&~eO+8_pp]>]Rh:pfd&&,J_Jp6;>wFk,<,Qf1_=hMN[
 X3,Ky_@I)m^7uC]o%!n|Tg.4[yByhPJVHV%(X((QpE:CcQq1+u[l0ruHj6=rm[g@zv8>2edWS%@QYA>BRVM!UQCpa_:kv%l3D0NluPh0+ui@q^:|phqeV)
 CI%u;vaeZa1TaR;R0FHnu0(w?:K6D7E4:T6+)Yxlt8SbJ)E|F0u5&>Wh|mqZ5[M%^yA!P4|HX2Z5O(mNM$rL;8ytkOIZShDTLQ(I]>1K%sind7Tr]VRIQq
 .bNmiA[,D[5,C5gpx5FQ^!,g@NHC;i..%<v5@!8*uc]k>eF3*|@%N!gJ$yTIEVFJh&D!;r9r$,p=a5vss4TK5G+!9bnL%lyOoVUg+6^;ySrj=aI1FA<bPk
 uTw$[!!5lCT~A@c8nqNdq!GDoyms79[FDIn+3rsz,[%hEUf)$xATiau%FgDi$xl&P8Bj3dJUaiEoIUv+sSo)mG>E%;5rGtN2HwljPR12U$oLFo3V5[?E=?
 K;9jEtfMqV^U8<68E)Yt1D+x7evDQ,i>!geiWgQPP5*()[]JjnZJL*]&SUHOI8AM]U)?[,5q)aRsu5sCp8(pf@?UMm)gkbZ]1P?LE@ZS>d@PiZ$mz,oGoU
 =7VCbtt6>=TtN@Em3si$oN!M49RRG.rbg^U@gBcU4);909~U8!D:ZeJfcM!tM(EfOn$g|<F*tdiSm.QgpL&:%^5)EkUNMkNGbn[MDFa@[Vyp=q3k!ThB%5
 501qKxCn$ls!viBiy[$9Ci%aAr,32G=[17[RX7xg=$Nb(DyOu=MEF?bJ:.q%f)a@VtMwn(vh_5E]GZzH&n)g=ke>0JZmSBZWt7U.fa++gHAp_j9JZUhB8<
 DxhV9<0&xE678c~xma+mG!:h||H%zdBCxe:V[DIwQU!0*Gy$^7L%6%5bybtowg*yipn*.,Piioj><J&>*xkOPx!k]GYC*pdBtGDGE79*+<(,B4N^N8(3U3
 cd@=Y4;10^ntYoK0w(J0xGI>31XW_[6uMNfuY70%FNNdM@C8n!EH1L5QYIom>FnSRu6tq;tj|bB[]9bk~p+STt%xsdzWq(poWFYUk|Qs92vGqN$3gHRSbs
 uThxAThqVzBTEa34YanZ63:cGBo;yx;<L0T.$%MuKmxc^a$BEnNI5edo2M_S_q[qq53FN4BUN+pnPdCVTn(~)naMxtiwGnH[4,Uum4F|ibi=I;d0?>.eb>
 ^A^zag<()nu.WLXQhg$|HU=7v&9e4SjRrm8V.fqho<cIky[633>pMYXITD)C[2dc!=i<D7UxY*zHHJzIqi%z]2UIr;~:B6l^s:W24Q([wnZGvGRnJt@~3S
 %GR^.(kb!9Wip!D(pRNNJ5:Uoy&Bjw9Zi<I18)fE9JA[!|ZsbQ]wl2eug6yLnqVd%Wxp$sQ=hD9HE$gCANthfUD:,NcESi&^4^ol>v?9x6Zie%J_O63;uS
 0,6MTQW7se]I(]:42G|q$i@IaZ6R8a_0xB%=ANxvKtK9Ouq?MwMqnt|37zEWgG]hEVa4nm6uxaSkb]t]DX5zF$G5>l7C5.7gYpNnReX@$*H+2c432xv6+e
 qRDc%]~bOuZ.*7?Ruy^YXH;njhS2dcON)3By!(UvY_chxa_ZYnFiiXu|A,er)IYWr0D%7=qf$aUI.u<WpqTj6^95B.]<7wd|Q1h,o9lWacTqcg)oSKKm]J
 @8a(PZ)nlBW==+AcnSPE620ItIdzi0S33P:&mr@C5X+%O5eAP+>4fyfl+NM,?7QEd3Dp*M+$hIs!1XyH*Z=&uOjxXk9&|8$@1Ja]b[3;+.7*pPRYv;Y!=E
 $.$MZ$5(.c%*hHZJr(=e7DCuQ|_()|wF^^WQUOv]@$ueQZysgG>5NT.O2imqh.6M(!rG;pl%![c:0;>8Z]SfEX_P)mHX%,*,~Hs15fTZkxZX6tAJ)7kp?c
 Ejn^aweT6hw;*KYe<S2x;ayswbtBH$]p>S,iMF*<,OwTz.X1Miij=M0M($4iZfPuZi3!Ucpr!excflEeg73+p)aBx>%$R@0MB)~nZp@=YcSGuj@z^^6+vV
 MXixdMZ9SO&BI.4$4,e~$!.Zhr?jRT0o>8;j!U+g]@RV(IjiY:yjt!uK.TY;~*J*(x(4TYHO5IvA1hfKPnTD]uP_AP9A**CZ8wVv5sh:O,sCZTYbN4f=NA
 Z%w21?t!><58,ZdET)RLrSK(LVHt,:sUIMd|Acb)S>HedylP]WI?55:]<[[BQ(xF]$VDfVNB3w_Ho]L_]KIv29PzHsBNcPH7vV_nM0S(0_?vW>hQt@.|1I
 tGj^n4.n2>>[s7|hm=7l]fwspk7V>~>NwF)nQu4p1pZ1k[jgvla35Ee.Q&Y%R0_tj3izyYf93HCQVM%,UyS3pgjc>6Z__qq(saAYZ%NDx,TsNz0lw@^hmb
 EwcFm:1SIHxNgDGrp.lDy]h~XZQ&6l26oBDg<z<<UlSpqo%(?7|iu7<Zee=Az478q$D]CQ1ck]lK+wu%3hwq>@3dPeEqaLfg;;QyA=c3*cgoZ^ut&7:N;>
 yZR?e9p)SNF>s);z)t=4j5moTmiB)]w[kvejyIn(u3P~BK+qsw>5l=*,>^T&IT@Jb:*IILb=)AWU$nM2U<[[[mU^K@FnrT+zn6Bk<lxsUFJp=2)3@Q_],+
 jw.U<CoXg9GX0vW(UPH0x@>ws|=51bHUFF]8Yk>WR>(%y,1sOGPk[7B7Rw=7G5k+XI!!r][K^pW$6kc0bPIKUU5NQ,Uy&G7+DU@4sKo~C(Okc<jtLzXds0
 Al%p9!:Toc.k_j2ZzTROk:ki[*^m4k,yqUV*X$_olepbcchg8@b4&lDYumFJF2y$x~t0(4v90xPB:7i9hvwl0KDffBmT8e%)c:y<C&5sQ7Uy9RR.R?dM5M
 g?[HF=h?laAS;!(D=t:Wy1uOoLhu[=uEz]<8PxLet=HqJNnf[T]hKghso2hS+<w%.yA;~WnMY(wmjny10l!uztm*iHF$mT!$$xBwl$gL|)cVZ+UO1l08MR
 U4)r(mrMRkH7bL>2wn$eK9r7mKw=hb4UTVf*d<!BDd%,pt29vW<~g.3uKDXLzjw[kkFlcAhX?^2^2WhHqC_R*xGYz|$XbfC=0i7O0ZESUB.NzsasmpNi9e
 *PVAcV=?xVZ!(ya:tS~G$7mOtt@D<nRcf13G2XTw^jyQ&f[P];l3T0J9r$pMF_=IRv,:un@@fQjAeWngMr&vo(FS&DaZ$*h^p,XLyjiTkwQhMoIN$v>]&8
 *Mq7MsMb8<NncP=5x;UB.$P;Joy?G<O+pU=>y_6>9HjKuGG?2nk*gWuq4raqE*DcZw*HU1Aiy6(V10u8Mj:~TUZcxHBU5NnNnpo]s1.<(gcRX=S+G~5r?L
 *qH@izjzHkI3<_*4:otcS3StBE(mDyOlMcbG%6S:epNu7%R3J5b8wC1:Hgusv|sd7nBIn|r2&Mgr.?RW24IxDW)gkQzDl&k)fQ[y+Yv[hJb%HUJ|ucam6E
 4^w820e[=9>kANtA?IrrYUOmLCN&)lnt_gOu4CfY<iAxmkA2+cN8l)asO<BDQ3xL|;c%zEt&CF?awmM_KjK;M<;dv_^42HHZ=@%_N&|&s:i]g^1F[?X;0R
 IiV&0)q*0<p9r:44FL08x;+0_MeoHVT~>NzN,3yNZxZhXt0V(O|FvQVT*l]UdumR@X8x_Ef4tFiOf*C[oX$<]sIv]7kh3g,)&cTkIrW=iIFMG&?bgGC_%1
 IIiv0E@)3BCAzXo9jxs;Nv@kVhB3B<,rm4jKl|Ro)?ijN!TX8(g|8Ab5];N7YY204X(1n17b8~D(tZ7s=h%V$Ss|@;<5%5np)<|8]QS%j:xzUxlD+=$;,*
 Axjz;HS2F.Q],xB8IEIsR&A*RR7uWoYZQHnc]j@Ea?9aigN|MGDu3eCh6ihZB53Ks(GGG:.r;xlJnJ$_NXQJi%izUZ<IDpy77dsprg=OQgD^Qj~@>VR.;@
 vItP^r^uB,N:d17]dG<DbN%K>$c?L.4TmyI%]@hJ&hpL!H:2ox~4dt^?5|IoPg[$64z(5*f&:$5bN(C*aC9J!081;lVcmET,!rGZYg.>7S$&fR42p[]||C
 *op[)Uut^OPL^gSkf8YFbgd:l>tK6>bPVX_8UB*=QaRURmd>pp?5Loxvtn@E%G*?[bn*6u:i:CI%S:|MbJJ6]BX~ZM&PzXC]<0pU,R,a=n%%H=_s8A8fx%
 QsE([K~W~);S04pEk88||iwIW2$5Q1o+0Prg5*5kM<qVF91tJbky^R++~C|HhA;rM&>?::l[.du*xC[O^i<A4)2WR;Ks+m7HwnB@vwp^5~NIa^DfG9LIaG
 b?eQv4)GxXoZuqEVl6;Pd|R=<F=:ZEKnm1K!.gi.R?4V8Dp?htErrsf>(l,b_r6&!)a4[<uBOq6m5)=2I@C*>]G%rn2^zaWruxD:cxsn:DYVR*GuDm63FA
 Cgzs)TbZ.bN)FW^!W*;ZIow<N4FolxoHFt6PgS7A0xs_cW;Shz?3fw!1c^muPB%n]FCHOsJZ~T[oq$[QXW])Kc90xK[A1i?ssyLSug4*8GoeIg)F1pAzm@
 gL?iP1cYvUP8wyfuBwlP_4o*~IX7eP%_ovL<Xen*(>e0P52ayr;3X;[b$NVE]@DBck2HMx$WaR~Ns=ra26^nd,|aIsiR0e,!Zl]l|N|W|ig[sRGHih8GQ|
 y8:6nAO:qs)M9j2aDW$r]Ro?53wYh2Lb7<HEl7XAkQ6[|ygyOyR~Jq1je$SvO@[tT;%G_z,eXAW>Gzt3=6+k]Oa+,.J|FhtEkc8gd7txwVLQXg7Q%[1*.u
 1.^jUMdQWD*s8h,nGbiaKWJAkU4qP_JB]dQ%1&:GhSbV2txd!AKcF<>xyt,NFJd=m8.e.96lis<Pq[TpEwsNQh~XOwt!(seUK_h9<3Qa5uB5x_hnPNf^0w
 @Kk70erDv%]A&7Tk7YGQasc*H.m6:8~RE*.dh>c^10$XjEIb,4aEIK].&RcmRd62;Rpdxoakm6jk)=z=EC,uB(,;?;nn$y_~fF7Rgsqc=RUW~)ZrD53v)E
 71??Ej54!cpq:A(V&;~_uvcgi3w~R3XTppcFGNm_1A&:q@0ZPb:7n9873!uU*Qk<PB4p?X$wA.0k;BW.ocEN6[vyhMMO5X3Z*:6?=lw=;=!hZ<$wj3Bk0>
 A2<xbs781y<96_7cDYXKjm2dpm=b5g6T@J2==Uv2I?*d+0$.$EgmrW&4iAhKLYr5]=jUmr*WpIW0IAOMmpj3ohUqV6jzCLF8sX&NTQutIv]m:59P!EeA[$
 FJqN>bTeK8YMhX>mTx+33aP~HilTrgF717QC[(BVy3Ft+96Wt5bgM)H>:B9vgI$;d@gg3Bkc>.GqUvB%ZMUM6.o7?eYog;e*!l2:9G|^P;BjAP<k<~Gbx+
 g;;hX*f1m$)+AJ@5uLq&Dc9Plqr4j%f3o(k+$s7i8MO4CW.9QgnUO|!;goZP!V0:3_1YD8CBF=0gFlWP.mo9[$]gWE&f4TUymf<3F4Wt,bfjX8bmt@T>g6
 %o|2uGu|gkN_s,ZO76Nnb:P.?EC6XO;368&_kXD0?lV?miT6X$|]5[h;0Q0x%R+[3|c.;$JqotENvqh$j;ivf8*k)g>HwQMzK+TQ+d.%+?N.qtWBg%VK[P
 ^15:)C+UAcfow$9]hw?Pt8=Km3Uy@:T3p^T1%8DMj9<)3Ut+8fs3b0f;3mm5V=;E;[B*u)[M0]Z]THAQ=AnsAk?xVbdk[35l99db)^VMhwU=Sk_Uhk0Y[*
 i;Hd?a<GLRdaCTACbA_C=P?wYi>fiqwA^1FSUV$Zg.jwq6uBoKaFbnv!T1wULP9!%wup.s^|u7[SJxS|rI|!x.S]Rg&,(nGe~t%b6044RR@w@J%FQQNJ(i
 i11Nntf19:wH*>Q7XY1*KaULFdk|,gCA0q3o~GOCRZJOLJ[8FAOZHmG906ex2WZ*v?Y)%>nb@;5yEk:+:<!..]FJ!av3[oX4@0V<;EhXmi^%^8BvIZzU)J
 A_Gzp46X&x0<wmD]?AHUKx7VJ^m?&8tgq8WDrkYvhk9)ov9$~fan;JjejhnxO>eb1@y$pi2,SXc|KQ7AhdbV2V4KXI%SsqBfPdX$:VFC+KLJJ(GONiVPqr
 )_ursef:T9:apirDiJ[M1<P%Nv*fgZyJ$JDBu^r5b33^BAi])9,cgYD[^UckeR*9umkX$fK%2<JwqAy+[2ONKDXg0r,78bW!.,l3>.=2MoVdBYV+t03Flt
 5YE^i;?LDAZ[g=>PyS8y]NbPo7?A,pgO@|I?K_FDUa82xp<6HrPmol2ze3N%o=;apYj>i+>6Lgrl4p[!xQ05::5.C%B8rl]y,N^2z@;hGZDACWxBU*BWr2
 iCq]+auq2r^>Vl:L$3R3;4UpVAu<7^A*>>x02xKv4X:NERo1Mi31:[0]!L;yN?QL8L$Le?sH7+C0sEEMl;nP1Wc^h,LjwfL$:7[DF?g@V2yV*Gb|YfpU_q
 (E,9T*4(B4uHfTdDRDoYt9]9(dJd8bS[Y7KY_;2>3jj3]jFLYk2hoXRI=%4mYUse=Ju8e@xnrhMXVDlssbu0I&c3<Y>Lmo>u~h,d1.]R2..&uR$dDU%Px?
 b[Kzk5K:od%IQWvhVuq4ft.If*%V6,*L9[Kaoq_666t<yVERqF0L7f6p&=PQ=Ly$[rB!j_zM2t&WxuY9JvIb7mV;CiB,H&!eR[WYgRY+EnM15Kk[@|?y>f
 ExeWU_(7;wwpMrtViL;kZSWRFXbEEauSR^e[^QNr_Df|cYFY|=UDcYn[SY7r;UdECj<r6nt%__9S5;>lL2gi?OMWHMZ<:?k[fKQus;=RlTvEqGNQv)@:C,
 sJ1Q>,y!SU<WDYU?8N4kGTeLy1%h%]+$VhJZ7;|P&%)JqS&J+b%JK,LB)H1E?0Er3Q2+Mgt*P9>5Eogg*vl&I[DX*3j^1@<PBQJjCm_w1JJlvtKkUT?g22
 Tcp+oS$hTYv<g<u_v+uK~ZpK?@2!KY=f$]nBr^LS~6MG_fLOF5v@gevH;:oY7D~I$V0!8i.dhxm~tfbS&zqA1rznx]|^!Y!FlyKF.4;D==tN5R?C2u<:o)
 gBZ<KMvpd<$0J!p)LPhC!~q*Wc@;?faTDGPg1@3GWD[[k?W2Rdpi^o?o&m(.ea+El7AVOqG9%g;1i+=Ob];TpcGJgZISDx;!vQUCCj7!ScNUhQvKZxWy6U
 vv*q:=tI.5dl6ihRS?H]Y4*d,i;+9]P]B:RY(cyZS;?mbuh:M+s;bVYL]b@KC+vdf(y4$p*NFkvSyI0;,tI>&E4jN~ZmZx|l]I<=,BSs57CRzHF0<s$Z*+
 <&S7gkiJ*oFZ5LRniR7Eg]l>C1X~,ib&Q6SqZF~:aU[PX@j>Jcs$HdtfPWCJsS~=>l03MiCds_**zd;5WZG8nC3l^oElPFfz$:t[3Vw@XwkekKl!U[D%t4
 hYA9p2]iH=J*CinGnK1l+,1bQD5.iXY*]IGV_w(Uayx)6|Lp%^9@>PHM6Rlob8;X=|,I*@tbU]2&(35EmQ,mibHWm!%1|qN%lT:cZFhPnul:J?BG;A^^h9
 ^LTZct%T=HfU=E1<OFUWY*Z50fS+Du>2y,^FuKo2]fQeh5Enh8c5~w4(ExyQ5ZLv@y|.97S5c=Q99q^oM[;r.Cs)tNZ86aG5by>rpNLp@Uoj+m~Fo9^Q)N
 &OqR|(WxfXEn~E0.Oc7IoLa@*2>mQ!;lK4ps9vUe.W:,XUuJw^y3=UkH^C+M@3^m[[:DC[Gi.5z:7]Y(s^2CCNyza9cW!xB3BOx:+3w+%3;9uxvRL[74.X
 S>ZDU?)xz<Mq+4u<>]f7|1ESM05BFc)P&H~0M=J[]CVXFAAUb~SC,B4d<&[(MJ<[(DA4?ApB8OkIw>eVD6C~%@;Fi[7Hfc@J]G])7vxJw2ZYyACO5$J8$h
 8bjY@j9YfxWmi8@F=*X9.WF;LUZb0f2Fylhj%RQ&885VHMut3b;nsQ&yYz%JMBYaDlZ[f!x.yH%l0or.4C~cK9_w>tANSKWpKqn,rUti,%0r?DBYQIkDI2
 *or^lTax4V$G6xoID_M(ec.Ji*P33KjHBtPK!T%IxVjQ~$SR<E970t<DsS:WzVR?KL2:R|j+?5PeFJ46GUtDw12s_opZcPay]6rFRP7AQ!,2mae+K%1@Lz
 obWrXMlwR+&)4P*FTg@[SLzZlVKdJO,F+V$<!w9[<n<V32RJ6%Ng&Go8+)Hv]YR5Nmm8<9Sa>>JmJJ5UxL6)]xi26gFfBS6_cuBqfP2F^F@dqR+Z3z6o;L
 mi(>[isZ=_=>A&ucbCO;g2?T*1H=t~;D@uyrxO_]i)oASYQgAq;GH0&+=|^!QZ05cD_u3mhmMj1*TaNi?iGf1VdH?8_DZU$5&Qmr$C4cXTmkz&E=8ZggU]
 zzWs1sDqLCc7LXk9Ja(hqR*pNbL@7&!dJ035TnM5p]4N~As;TEmFwc2la4(*:jHuCSa_iVNETbh2GNPQY0pM:Zk@rB6mW(!_9^_2i9oJLVc7vsd![q_yk4
 ZQG_1=rb;yZR~3Hd^YdtJbVwdjZzWKqI;]kg=%*UetA+=&H:i=[8QcHxc2zU_dxp=rn!Vl6F7iqyL*l;d!ite!*gQEnoOH:+$v<Z~AYx$f~?I3Uro@T<*9
 >JEnMH91U$O&B%pnjzmejF(kdml@LEbFL!%eDG*6G0F&IwNogEZEBr?56muoi)<aRT!FUtyS7%,Sfzd=uK&r9RSonxurI:]S6_&)xyELvRMgNh_g,,UEHQ
 S!$)zEG,u8it3qYG$BwTu3ZZM80h>G;^ctLk,][?VFBlx~a!9YiFHLUOFqy~eR.tpQll6WYXVi0;&qO*?E81^$cN,Pe!@4&P5f@LM!!(NA8&%XGNFMse7*
 SFeZJn4*4]3J_X&IXv41AW$%gudS[qZ!<ig3dQ9sNd?HfxpUM8cZC=t+|A,?GD$@zJ6!CQ3D!2@Azmv%,]y;nk*LV)$w28g7R.4WBYo0=93YN.Wm>[A!Zc
 12k+l;A];S~*eLU0Z=@,T11EXMb[q)utSEeBo+r2[uM^ab?Hi+Y@mW,OncfUwKat^=86Aum;agC8TT0ye=ra*^E1A$.hB$l3^XYdd2?a+OTeAr.Ow^l8Ho
 1rQPlf~^Dhb:(FSX.zdkfQLI5Q)R%gg]z3<=9Fw6Y73T?b>cucA0bn[pys,uz^QrT@6.gZc~_~yha5m2*ScrUowTPKYWbUT0,i.*8KkDYbJNW!UnuFwHPl
 =cA&$G>;G1PBXQ!m[?TfnUuz3NgKqHC:dl^SG<k(p[qaL&Se_EidR0zXTh2pvU?[p8eeKov%UQGG&Y^znhMGaX8pUO.e&w*04my_h(4I]O^SEN(qle]&uT
 i%[z,tqX=$a3m*CT$O:jXv<PK32bFyHNIZDjB1qva_?0~qt[v!5vi]aoV?G<NPl;kO9mLSQFPX+5Krd2HOhR?XA>C|Eq|u;%Pucu13xbgHpR>WJXfAJSBz
 z)BD.A~O!>@tIuo[?JFM?ck[.WTx]LIyJ*Y9c)BNh[Ed6j3iN@@d>=P*0[MT;xc[(wAYuDuz=.vnqlkI:6o5[Ews&>kiQ!8R)ZM&dSAQw[r^?D8,D$LlX6
 qQi3ZDr(gIJ~djA>gx9[YAe)=(R8[~x^o^6B|Q%%cGBuevd!i(Nd:p(0wJ+n<(!^W,(etsS&Z^7mDHFa]fQyAM>XY||^pg@3G?_=*s3~<K[WG(YY*yDF%<
 kSi3_!oiT1tWDQ<Ac4>=CRX4!8:|Nv23<HE!m2JrhWjX=9knxwABBGi@ymM36fkY80Ra8e<!IEa_)tY)&oHA331OGebliX9y8cL=dny.66Dn+hJnZ(VC:w
 ?^aU2CXQer4MJ8tyH>Bt,B*I5c^F7jdxPeOuO*X@Xb*ztN>O:%=:%8hEjaDHUSPyg^9MXYvbEBa%b1d:$^LH4zZ+Z8D,Jr+z7,DV[WZ<|Ikw_tz1Bv,T+h
 IQ1re4;pvX2:i.k8R+5&*8kEep~y=;J*q>vjy?<y&9=,1$4rxd%,J(ag8a2<DBkTzGDhpT)aQSTUZzmNyhUvaW,yPNJfC_C(y>bg~mRP>LoHy^jAZXk,qV
 .B1|ht]NqQFrgF<rPRS9ajY(7v]Phi![Sq[VPCU^GwlFtiEj.e492L_xSIBTiz~bGnKY6Te];ysyl)tkx_J;4<3y,c@SJNk1m0|t4PvO0cX[KAuXZ4Ni(D
 YxL7!m!D,D;8bd6uF[Z(mTVi*zdViW8uE+zgu@=_|tsBukD_3o*R>^ex>&:&mM(_O.u3o2liY[_P)a@y3iCqlz7TiGK8uXcNF[BA>%U52RqIqg*W7,$7ae
 Kl%P%sN|q32E~)z5j&?Sjp,jpg=8c3t_c<iQI>c^?VcDf_lZcIx6*mg9z^|Kd[6EIgZ(pnp$ZUQBcv5<=1?S1atbiSj>[[lFgd$phYoVo_*q$Z.i])5OvV
 pRh:EB:mh3:_Vf@O,3%wxmQn(%0El]WG>=J^oUy!:9hnV,d(<$JQ%T92NA4._ZatIDPk|)S$VnIkp!qYQi>>TjMUv|XHVftuBHE>DAB|r|EQzv!MiVv]E%
 z[F8)!TJ<sm8x>:68(edeE~+Q1?2Ct&n~i7evRU0E*JXx+gxi?6W8oizP^.aBjsT3CVn1pv(]jlg,_A6aWC,ibRdhu+@C;rR%ynJq4d%oAnIVe&&QFA@!h
 Q_7NSW[~A1KkpC,^5=W?.V<O@yO)]8hrl%HV(Mx8<H+1?5nvU*1Eu?!OY(ib1Wt|~t:j|yCODH4Os2X@38C_tK$g5Y9O(d>%aN2,vbQ,0AT4lX<Qk!LBE>
 U@4G2;%RGEVlx:^dOKN2tauTn@SGk)k_V1&Bg+Ntx%Hji5Aqt|ox6G@PVGdw[N2vpNg;df:v5*TN@8)h|+tR(wAfNR&kJs;2P3+YNVcYCqIXAfk1AYJxi2
 <:E6H]gAqW6@9Y2Nyn*RDFeEi8])d0NRUXK~PUI^2kO*?P.|FZPJ$PK|5y8B6b.7H5gIQ,i+rFb40WQ>e~=MA&5z~Yq3*U1Ybd[7904DSbN>gs[y0*3a~o
 2@1y6s2PgO]=|z@2jE7j%UDg,V@V_f:)C>V^XR?B9^*)@uHb~uKnAa7Zj!4RjAw~w&tzydqh75R3Y+s~f;z44<@S%&6wOlvfp.3~qN$RRZw&N1;9n,sqQL
 Q~*)A,GHMoE<.feRaL3Bwov]HpVP60f*Nf8nPL4v*.DH($cWPl5PC[Afp+JC]CAq.>xVmq=h:kdo;@UAoq)<bAee86<FdqudlN:0Q[rI2JhP^,DG?[gS!!
 Qb=M1QC6o+1>ek_lGk&4*hFhnH3MJ!V(&Cj8OfY(9$6YOrtm7U,mL)MK~n@pLz2r+wFF6&h%OIl:4@~!nx$T*H~Q?7L|Ex;gS)>zE>Y_LfJ6RE[=V9bRuj
 ^Ono$n(6U(Q!$SKGSdXG&CLR&KJ;bP41x06inmsMhd.PVd)VSj|>vVa.4WxUij4pB5G:L$$k^|C272gaVp+FtO~:wC&*ZFk]vdU^a)wvldZv,[LAo%vGB]
 T|]!7N|Y42qOUy.S3woYW&*sXeY]OxKj*Tq^VtpcwqbpSaFPlc+OG!]U@FTwQ3B^X|633:6om?N1?d.2TWLCL=kcOtr,H?G2<gHryRaE8,<|fhQ8!P10Il
 Dxrn_MV|^TCZG*W31ZVC|=!UnUO>IA$ObmnVTmvovBi9]Fa+p*zMRC0;RPSgi>(]tqpg1T(Y$8kq2.(VgK$6aDUXA;]MMck:2ZK9R;F;p@z0s*e*u3nIk6
 ?(cQzB6SbKJTe+]0ml?TAtf3rAPp.NGyqtG)U*=wfvrT;o4lfYlePm6y?_d^g<xe&pMpbz1<i:CZ*OZ~BPdj~E_FIN@k%IHB<z.FJ(h!u<>3!a[EA2LZf@
 e9unKcKBK6z<X^XnF0+.bnKS*xlF]n=Jp14yLz[^Ng.ntA(B$>qZxE~L,+l,cN<ZSxv]$=LSsr@z(]CX[%UFhQB5Q5id@L?pI<WR[.fn$C$2g3di3X]OC3
 $_63d>=UX=pjhF6(Vf,2@V=8!GbW(+yt,UCUZEu:Kot;03pNem~Z_AOQbok(r>B:%E<W6xhH]RXaA4)_xF>$7G5?RxU[rFzh!;YhC2KL[]Tl1HDcwRYdGd
 !0CA?8qr8+od?yr9D2$o2N$][6EUqoL2:t<0*tDGQn0]VoNLL!RBXf?vz5ZwaCqLv4unhJUAsWO4aB8rCC@%vQXXSHd0Rn5.!e<.t+**inN~1eC1O$$>%o
 rN<Z2xq149mT3gtS310K)vdgZ&R<k1tD=!mU=3hEbN>>_IY(Nv6T7Xd(9rZ6A?ds|=(yb_;&@n(mk!&1_jm$~TlJt%f5PMj@[taTNqEqT$nfV[(?@o_)Fx
 mIURF[M+TtwxdW8nq^sC:Be&5<haF(QHwa*=+Il5vRAtAR:gQ5N5J._%5Qt;w^e;5|NCO2sDY8a%.5BP:p]UJZ@~5I;Rs:9(Dy>vB!SbxOLfeC93PKtO?M
 TiVzQH1i&8BHnjo.%E@3f*ujW:MueNl09McD5R0WP|*7QD:,%sH|$<X$8d6s2+p.rFTkTgYQX]<@&?ltE.*)2l)f2;9:YHL8MXS4;O4Ch4t3*;rd@ue]gM
 9D&l<60hZ=OeDhTiS4sra4qT9LI5xRrjGleCv_Y(;_X=]JBuhRWVFTg$z<8Io~TVnukMWe$eSETpABdTYnVCcCqHXJ?&o5r@W39*S3i1aO.hZbF;%E9q89
 vU)z:bU7aPbeq>l*9QZFo+Cx=.7sjFCa_f2M|sV<Zwfu3c(+>j6jHncco,gY*t@t?>K,cjg]PKggluZx,7*kVXAI?bLHkEb!Bp1ay??zWfT)YumB8rotq=
 _PY|:ek!sppF1nE=IU&z&?YG8)780~uQcVojG57:&4$,qkxL+9RjT1zxIRK[,@MNzv+89WQhJ0DX*,9la@gJ%,hv(LDd2w_L2+85e^,qmwl;wYxr^kX_x:
 tH%we%B_yUM)$6pmRhOQ[bVWWofO9DVL<*&J;zTHP@7sW0)@Krn)Zx)t,R@vhY[gT6w$e1vyHSLSRHpxp8jy>jvW8$E>UOys.ttQ7Tq6|@)_6((GgwG?xX
 .ox^fB@!^_;ZI*m8@C+,q2c@*sMvTvk.H@IZu,gPcBemt%CNC|04PxV*Tt;kQiS.c2yxxMjv)hzUPKl_.p[J<;[wdosok,FuJ1sY4YWA;TMjwrF]>I&%~x
 hct!>Qz$DtR32vEITa%$KP@XK^)SQFF5Ow;y98CS7M80TY3KH~NTRogVhJbxlNY3L>gbhNBn))rzN>)rKFEF0%F;+me+QHW;i+CML90R&&pFYDqgi~WCsE
 @Dg,Hg=O&U(PM+v.au^U[&&ScNF:=FVjGdz3M)TWa25Vmin!WqH0;<f6BFcQU2s]KOtiPb<Vf|?%8&h47Y,f7K*%IRuNOrdh4S$7R5AADrkUY?@p5<Lg0x
 yk[66IDFQ%dOgH&,3M~tt!HFE^<HCFYg~SQ_kY7E<Y3>992Gll<rpE%QSNc7(AAJC31$.1[8ZbS[J=8P8yGT!eu(=RVR25Lz276J62Mwa14D@P$SlJjL2i
 GmPePDzAK0)1s=YOObZ8PK2ZQvYeDTAbK8:A+ShE(mb?MhA^UdDgi[!W:ZM,h7ZrSezo%x>AIn!]&siT7v?p^@HR%4;.1xg;^fmAL_Dm%;s|^g+D7l*$8b
 F%yct_Q:HQ,Rhe$!LST=gk~X~g)(y_SAEZG6f&esd:wSUmUS<v3wlb0,lF%2,KJb*O8tYs&p>+G3CCnv,+yPUFHD^9,u35nF<6D:.:veQKJa&;q)R,:(O3
 Kai&nEP=ZNo<2]zuie3O]WPN[)NyEyLAK7:@=@K<lOV)HU_VD,jf*uN&kYU7o52.[wKAAO%H%tAi.t!ITpJ7S|GpJkr?=4$5<E&Q<MkvS8Y,r=a57Ge6J^
 ?6rq!$dx><GHDAolMri@^inhDZGb4s69cJE]wMwe6cU=!oRtYjLqvUY!e&Gi6JG(6P1NZt3OjvYPMU~Y!+V:U$i%a:77SDBT=my>5S.[!N5S2FMUROY&7x
 k^N%@uibq>%,=VmXrA~m7nN5w++<E7j5)=OsC]go$dYrMRcv~cm<2JORoX7Z.hM3b6OnE!9;Q7u%WRd~8)Qo&.Wf(5N^&,Q,R5??B04l&U=,NVOA8HA0x3
 vZq_90DHt;yN4Patg:ZDSC.;CCsi]D?rQ%E@|~M[,^Nrv[S0JQ4E$wc1K%GL$u@hezu7]a~R|nGqc^C(.)a*8GUR)&%cZZIrR,gs8@:11XD_Co6OfhWd>;
 p0ThqqnHf^t!>6+c2aRM1&YOna3EsLjxf1IyG_>6se0PJi8tmh.fKqq5yEc2XufPjv5sB.Mcgk%fWb.@cJO.f(iddDHb_o(2+;ZKSjwW>hlN8Ztb__NVRG
 V6syEvfl;FS+&&ZI4Jm~L|%dO^cCfa6sfg>ZHLl(Sx[65sR!u@m:eo&7v,Xse@60%F7<[5^p?@RWZ$J:;GYmXy+q?uR$UFxNcRLwgbZr;t$(P)xC!rB87?
 u?M&Jm.m$hnfhCgE9uC@K0z$%!VW3Q<N;@^@3f26P^gARM4$E^K_4C7W*S9xzmKh$gUDHYmXy+q?uR$UFxNcRLwgbZr;t$(BM<A&v~>ZBBb>=GA[X^*]bs
 fB>N3aI3(%MwCdFzG%sIyf27z38lP@4ZPEcqf)GnFGJQCXbp_pI4.NItewVMNmSLsjGKSi:jOu9dI&52b3tm1zeGtwEVXGF^6KihlJB0YFVVg<k$g&T[rW
 D(^QV*MB@r4MN0y17+Ha(bl&>JlzJ1Jy0Ky%!ce6I1=XIr;h*ykpeB>HQCAW@[iOXYsy_k=YTJI^%vjAx,k,tr5lgX;Mup!v&+oQAz9eqgk@[$qk7ZLQzK
 [kV[|$lJNOc:GCajAx,k,tr5lgX;M0Z+xiXHa.wC(NC_)NUf<ND|d&*ZZH8zfcKD;m4Qa!rWD(^b;_ihBoTdM(1XlKpwG;V$<6ku;Fo|!%y)YpLs+Et!@r
 g9TV.BL0upln0pWRn$@U?M(&TOwUe6rcArV3r8on]$tk(Y8<29,<)W[FOojgxDU7>Va>!r3ZEs:AAcJS,.C_+*h2jB+zY(z)=V%b_<M6E4e&(HSMI@<QJt
 IHC(RI8nQ@C(WX(Y903[a(Kd03i|%2@iqzBdr]iNO2fL1W^b]DbY0f,0In*WiezC7s8qF^RK9Id@HLy&*]IS)J84F^mC~?TvwzEhd0hGClngn0z!W*WRsw
 gZN;(~nibTcEAL0M=pHMSIqE!+g5%~=hA6]DN+[N.I7>P7ISna*%J$ry>A%W!Zq04Kz*H]Rvpc]]x%FVICFiJE(+xMS)<K%IoG9tlK|h91J1AJKm_@l:;X
 0d[?=w8,HU%yKyHP.h<=l*8<*jBP![%MmuIb*StFh[Itzc!loQ4bSVC~BH3@zZ?6XH4u20ZPofETaNE+|]gt1m,oIl$h2g3YDRp&=zWGPl(WLfMFW6jWZu
 13RF$WdPfZostqQc2(vJYa)0^EJ&s?GY0$*46MhMs73cxHeY1%taw)FKn)PQVy7no$3?SC&LVdM]wc48cM&dVJb0c00M<UN!9$v]<TEe9X_j@ac[pCJ^Ma
 ;xa5]?+<m8d$jsvLM:kcLz[0eS$,]>AlM1g7?jwUd.LFB:*iAZWLjp?*C$:Uc*<l4ibGf5<c^crxuor@lt4=x*7gxn0@&XV?kOfHopuWHZ;Ehs]9TsTh!^
 MS;mhsDp0j:e]aKMT?=%j&QGMS|zSVdK;bncR9$5$Q?4()C=%K+fdAGEtEDbHtL1T]N=6;2GtTS.=8LZrsHbYSvC^sC,IthA(|r>(k>^bA]5bnUNuWw~>z
 5[[xu9uN4Np8=>h$DToigr7YISv=87s)uslsGQ6Q^7mQerPg<0kb%]b+(gxwwPi^kuo?X^|w[.d*%Q0?2.%F,SEO_0^S$XO__+gC<uC8UHl:+d?F$cTHWd
 E=RQ|]~J%Pk5W0&WRdjyO51B;_icjd)Nq.l159[6JVCC7ZqfqbvnRc$!*ke4ijofVqZvslo[mSxgEBu0UHtB93geYv.MY%Dc8hCH;1wOvRcJ<&,v3dm[aL
 DP,tCNFv*[8<;<wGLJ3ph=CQ0ZEI.wb=Gd:Gq@,JG$$Z1eu1NH?5hjc>V.YPD+[&uE&;HDZE<:oe+4)ShxCHt0P@~]ok[Hs)sFd*2!B39Rjz|O5Fr|1LM_
 :&KQ:Vz*F,wOlhGy(YOy)39ng_EVuQ1wPWM>0QPk?9!h:~+Lfr<%3?(YnGkb[!f%dzR0CkSUTb%BkC=FB>xah,w:$M%tlG:PwHyWM>Qi_M)rqNbsw<Mhq!
 h7<FRgPSSDBONh_SYXS0ZEnz>qNW|yBP6Y+j_aM2bHN7!7CkzHcDx0ZOOyOBGm8+Bz.j4s@L_XT[XjMP?x:S,WKykKacfVgJX@34$q(e$JZeXeJ!61)~N=
 v+d^pBb,G1DbM@xLfUATUv*;n2^ZHw_9uk_t0LzG<Etd5~_KdLe!3b)urJrVrlkvnp^7GxvB9o=*%e3Ah7n42^[|FqZ,GiFwg8iC_Qvn^sG7sQCup_W3[f
 CSKW2f!DHha,[3;7i@^dEfwt!StLE7oN=cw0DLOo8hkcw,)CMfkPD39Gqop?ky+cO;CymRV;fYU]x5z2X3pyA+~oBRU*AJ(8OW]bSY(N;7$drD^XkHUtk>
 InD[Gl+]Et70)tX583cIU)4wkoJGF(vA:vi>d3.&f.nxs=C=:>@J2IK_^)1rPp7:wH,E*!fh>:$4m1T6,EB1$48[(SXPw5KLS4aP^Ovc>*r:@_xZPu4IP!
 |_n7igx9HuE|E&DHBZ_M@5M:s]JHH$dzu$!8ac(vMWkLbm0c&uyLnOC:|[FVs!!X4o,lwBvU;WU(lNw]aC_&57BxB9;pSs)DkU*Q:~:1;^k(pqL&eRKw@b
 rVR]BHJo|lDT$Q)*kg?IrMO[<?)0V7~KtmAY(QnYPBk>1pzjfav[NA$]2<Qw8Btl(4VUy_[~lJ6auj:P90FzNZ1j?Oh5j&Y)Ikt4S2e>_=bI2(L;cra+g~
 Td=Le>t~!7ch:JKe@@2<*YO[$emg50.;D92Q)V25tI@L:U$<;9TMD6MktIf]Ijn[S&4qy^,V)A|0tXD)2<V?k!Gw1oy,7ry:Wcf*TZtV|Ex2Rd[0S<1Aq5
 I=w^,2tRadhW2F$L7E(^m;6R.&0<SzJEMkKQXTK!qRa=_@8pm5X8!Hu@__N_eDn7ORrE4QGAX*XC%pi=&bmj6.0+JIO5P9t(0hX^M]B[C(z2$?p[NDAu3Y
 JDKyEaefOhEqsC]jSQLY&mGe|?xRYnI;k>aZ5[i~r.PX&n3%,~]W6o5hf*;tjE9d3l]0?YlIWqvkCvw2GdI<qV?aCxWNY[T3bOc!d3eMWf<bbo79]+D[jV
 lOUzu1+V!Xu*[VN6UI%xai!wdYw0KXAXuH+mU[@A[yV)k.HE.XWmb7Wi1NACkqQ:7tiQeYpl>Po+acP0zN:avh@D%8^oENtzJgrBxO?56]s9w=QWkg:7,Q
 G=KoLITy?Z$l7G&n]]JZZ*_DGILHWNk8y*G)r;wFH@[KUl6M&]Bt?+G_Sld3Fy||NYOq%02E1v!n,>Ydj]TGyzfTXcWZyN32Y2EvRTuN+<3~MbKsLIC|O?
 I*fJd)S@V632y_6HkeDTJ;R>w6BgjP;ld98*rF*9qF@CGKdv1vpV]$t?bU_KuU(WeniGL3%dzoq^FBKzJ@^5.w;WUUJIJtKAKtDf.pJ$?_PA1kcyXIDI5^
 HZNun+7sMLC!pHlR?LDsQ6DTeX,gO6MOi4i2iA>+ed0?+f)$wXh@vqtY*<BXMl_WJw4kxN!|CkH~1rs=,PQ;;EqlU4ZdpHk?;k>>?pZYWg*o!7ud7Pm=3>
 1Goe].Ew~SGQfFWlxxBd?fRd=)czUwn<szg5Cq4FK4edO<<R8gUL4]9A35Y0@l^CDCW^Toris@&,9VX;+EVV+kVMTaGPq!^$@vJkQU(o)8VyE2iP72[=uv
 Dpp>ys4Z~ki!5i~W(@.]Ub;L:]t!P.wwcpG2%$w~JV9!tT]_ID~sJN1dRd0ju$7%9Sf)t&O]UcNc@4J4|@51T=;+1gk~Of3VhIaZ![u!=8KaA@T!w:Opd@
 x^_uEQ:5Uq&LFS*:+b|$[a.]2D72*d9kh]4vFB:nZ&Jy8Cp[Fxtq[KwxgV<i&ee~w:@^zb+C[lCuG]mOpS+T^6CE&PUID)qKR,nS[1(*[Arx&dy_6FfATQ
 [d=C0:>[a&kmR$g5,nf(g[LEuO3AG3gq5!(ZN3[;7BE0[|,Zjih&fF97@R=cjGxm1@<PE)JAN,k]6yhLsjBIdXKN68OYcjmqq|1Mlh+GK9(ya*0awHxVT[
 (P15vXK8]CY3DGsKT4R^~bP+zZW*ptY:T90ri<p@!+EOv8UutzG:M,MuBJZpyw=w@TijhmVDzebP4yYDU]a$z$3^MeBZ&Nx|;YU:9HEwAf_H,jty]KfR7)
 Kjp+0R$FM_Il1tzyBaG4rJ(@8f@!b5Wy$6<ccD:X61M,_WG:$qdGg7@UXH)ip[k5j.XZs4sx@CL@:K%S]v@:=L0AZp*A[X$ewWgnF%)@WuhN@6RCl@Y:yK
 5XG]$!r,0NRBTNy_sMuXP=U<^A:NBCJ*LP_<uo2.oR.+jNxI7BKbo_~t@nn276Hr?xhmhn6FX=^Z:%1|Rg]iezf[+_%hx>9xty4w17Nj8+xpl$b^_ctn|!
 RI,R.Q+%j>u%79799HBxZh]?[;57hsb0]m4|U0j34796jAUpi)bFIVflKnEw,wl0Lu<rZ9DCMf<W]q[[C4M4ZGN+surrvlsy&e2sGCH=C0q+mxnDS1>*B(
 HT;+NI.aq$g1qV6FJlz%5.uK!jXEX]6tu3bFrFn2wl2j~@=X3to5)f|6AofnBqm|upL7xF_o~B@exeAy)4+SH1B_2j]%+e:kZ85>^<EnT$v49Nm;H<yED3
 l@OA8*bd7:X2cy!H2BXZ~Pbed.w!fluZCi?nAjp|5y?s(S?r]d;e5aWCIIt[^]&_OXvG;RSN+Q[&F|ig<l>d<RVzWiGGOvjzAeiGfZFA9VC!oI4<Zz5qK7
 vM2rBquB5i&.Jv714?r;sw8Jlt9b4=q!ZPFORx8SHO1h[NQ5UBLVhQ)l)=peU[GSWL3%G$M^FEsIDNAf*s1&9&o$Z;Nf&T[T$6|7%7(O*Uh]mQ?Atg>HhL
 X1a5id<S[T8)1q$trsbIjN:N*b%ArEVOB5%igd,IGEmU,xKgUm7<:*@1G][ypjOfFLg$3=Y7eE1+)H*X<[C<^9)lF37A6Yn2K%7Ru1Gnih79*Hr|J!O|mH
 B3k)cv!&<B&pz)G[zBCn%Nediom?oNZ7r(gdIcK:&J?ka_*^2gbS<)k(dHtPV2OQaHI$Aq!KI;!bTZ**pI20?^Y]kwPN_6_:@wwKy$r8Q(avFu!hltKR2G
 ecPDKx_3VLS8Gv~5i7E_rU=]pMJv;4VpRh.EURzDIA<2Xf&p*>]tRLpoBQ&@v>,)fbF$A4cFLhSbCoA!q_D+BbKRV(g@hVE@;|]RC$n!^^+B)e*(Wj.N>x
 Vwd7:HT>4;0gc0nK^|eyRevcqAgxrek.Uw(u1)X<BvfXV)RJr_r_I=02.@93bAc4U(612DFgB=UX^OD^QTb_2@O5L<Od355&$k_[PstS?3w0h:j8DCm10&
 ^X;~.HiIb*IcLEig7n4Q2WNgv+u5[0vZ0t8Mzz%KOMh$z==<yt4]r1ZdLC[^*(RVvtUp~sbK%ooJnQ;+2z61Ep3z8bE0<klmnAl|d1p;cuc(l)$s3>EHIU
 Gcsbd<SJ5<~pS[F653:o4xp[KRa5^R]|p+[;)D<):ln(c_T2_H7n_Rs:B?z20aUCHi$&S>T+Y=?w(xCYwM<&30n&FFU)qqGTwH2>_n:fD,7liq$GqU@PW3
 Lw)ptjhaO!,o]zYraOnA+mFwd9l_LYnP=oTXY!wsY_Aa8V$e,kcKhq8O@L6K5XOr4$:<=ea.lr+zF.|F$@nG2,X=lX(53afbk_gZSNy!ZrO09x+1g_LBKB
 !nBPK&!r!7N=f]oZN<jj=mv;m*ZBsUc44i5b7;EF>=;Ac)HXhy+DCzJ4sa^&F7!U82u09kwbDENzhfLQT1ka_UvIO?FI>9De[R>F1^t7m:[iy6OOVJt=s!
 D.uJ[8sYen=Q:_Mj1Dec>$h,L~J0Hmp+GI.LeIUcUurgeK;?;*1$r&g1On=l8u0.+RDQmYv@.W%Pffk7SG3^m@c>(:2IcUW&C>R@yKk[dt$MiNl[Tu^Fp9
 224r^gwR(1svKIJJhD0*TMsTd_6_2.C&D]=B5W)&%T6wU$vXhoJE=BXxLv.20**&E!_^%.^f*8)OF~&&>j1?QNf*gRnJf*hJOLOjRAhZRdIo[d>f$BVMi[
 W!@EtLtjG%8aT]MkW!1l6rmRtoU1PluKs=k)Xo*dbam:n=GbHs9Y:4vm3&(3J7gpu>ks$@k7i4.nEy1Ep64@rk8j2?.ORZm>LuL@4^v0Rcc!TDJ8Y:6:t%
 YAUzC6)SoYd*iId4P&n(7r+L^FXFG)wVMwm^ek7N?GgQXWvttj~my+L1nf~CkZ.*Y_+)T1L(jKhuoCrWHlSW4V<fj^mB=;mN74ux%vuM]2bPLD3pB<b)^|
 JX~GJ.Y_D=!ck_F&<y6R.*?_yl;F6+$jb4G=itF1P1c>06+r~5OElDmzMN[V+Vwe<:^&UKZ_p0VqpC$GR6I4;eS8tJnh9!SQa6~:[Y4[:UwuWb<Z^.v7O6
 *15pzGvJ9>h)l2^;fz)(JCHPR.6_c5VB>[72RX(((SG(^Afzm8Fb6pE|f8J2)y7I^fYL5%N~=fHj05p*|9QO54aed9Hdx<f$Fs(s^qu)Zx:(tjSN5Cf]w(
 B?@GR5zw&4>CXZ3pA!=B*Bkx@u,g&t!(7f?7f@m3,ZJt(i6DHiviFb_k@2;+8k[R<K,F2(gC<4l.p^*DVT*oF_O1$89sJ&W_Oe^1&OZ=&o0Q3h.nCGb(8%
 >MSo&,@?*nG4!PW5H(SFeN_~4TqJhpv[DI(y=y%RC:1TrN!or@>u5kN~w:0MAp*HsfawK^7WJ>h1t[aFSuL@!aW:A80]<>N|Jo,SlHqUCBEwn:y_l)RJXS
 ]:*!z5!HFof|O@,~utDwCyS18Ly76bU0VLi@Y0904td=YAMhOG]qipQ2EUbwvBfdY5Q+6DJ%~$t2!,yw$]TU]gHefmf>pMG>dFxP3;k+IoA2>top%cOp[a
 L;73JAX+GNECG?bajUBgX7[Y0RL*HMn[1[9T<8huu6PvGNuv>L2cDw1__2mma33MXNdH(Y)VXO^SA(nJ$<6.@RIq.jQXOsdlo:UMH,J,Y:aYINO3Hkq!t]
 AYQoTXVU6x;O0[w[+<tX=z22&Un;3I0(mLObYE((v5Cv_a.XOSr8oB&4e!9lFED[,?(L_+rpiuAPEC).wQ=5**:_3[e<SE.9qeZVQ$Tksonh[AqhqaU+fm
 5<YDx81MC_A9WtcSC|$~E^*g<L!,bxUujh,pv,^9y1b(?NudE;J(H*^0Quf+)intpA:d!S&u&%Aouv]2&u&!$Ws|%1iFbSA_ll8cc2zh+%lUCr!67^N4sM
 UD&aM|_p$8CFc2y]GqUe4KQ+jU$dlhRQy65W&5P%D$YoP_dDLk~]RSYCYm>j)Z?.HzRCTs5fr=0,<NHc@>fYM67je&|NW6X!,q9[rnbpCAivq~,FBH<L+w
 !;AbeC3dG8uIvTb8fa0B>;^Q(up%h+5lL2p~xZ3S+*1Pe&wsH_Ts,_c^7Cf!tRb_y*29K5CU<@HJu2SfI6P>DB0Oe42zgwZ=0Djz0yIeX4MtwBKnpyFr+j
 _EB)<2oiXD^Wpb7rZA?]E>vcCT)f%$;@hiA?]NwtQn>OL*_qaWC@Qh(!Bk5Ybs$U+=iY3hF=+b|3<r::A7%Heu:3!VPT&(vENKc2o&:eGuqK:o3Hh*zA+l
 &0>jpe<87JdwFT]NHWMdVuop..xb,ZjxOrW_&jj2LS,Y&Q*j@2pW>cx+&mK$7]7b!^yo1c>&Fn)qiVCY@mTbB4oMedEXl2$yNU:]5RC?RrldO=gxS<Mp%+
 9U:5o<6z3FxcMf**)C48m.0M:6%y<YtZNO@U(j86m|Z<zbshLZk&.Gcf.A?sWlY*r[wR?+$W6Qb*(igUKpYkaE*P[si)|6bT2%vkx(fv:Q!2!kgCKBDxzg
 MswougcC]s=Eb8XwGXU)cOumkA9@hkq&%fdPhtuG$P@5M8g,BRi8gI21:b?QC*ud1G9od?AXRl>JtLZVZTo0BGv7Y^4hld@h=hp;FAl^t**<=l|5ygu^=J
 uID@wOA,Mw70uLX~078=!J]@THzuOc|:u.afyweY$LpwC?zk[a;OiVGtuYaj<Sk]ZXxO!8[VytC6>p9l!1.g>7.Ig6h5=5=ee?bm;FfP;a:42C[jT!@:Z:
 ][!1l9a71q]?%:S@0h1gK&y:qDxKvqj7eLaO6mv5wZ5g0rv@O@2SCfk:h$HL[d.YBWj~OXy=^^=~kf0UUuM9:^1Yp,nmV&tyNJ:c0q&qgWO.q,e8CI+byr
 5M[GLF4(qjpS&C2^;%x!s;MIh6@(CN.m?K&Gi9dx!uM_a@Pthm5=am>^.hQi[U^!7Z5xG+<o7,!vy,Upfdiv1Oi%u*=ZE6?45*4eiC!V|oBcPVd9j11EXP
 ZUn3tThzQq%o~BJpuSco*$DL!SE!)%W*>3gA9cx9[:BxE<F2CNtZGY$m$k@263i9sNQy4$bYs!5V33G=_kjs@3y[;GDo2fRGTsAxx=yeDG!<doZ>B,9X4D
 ^8a2~aIZVKga&Q,bBIyV@67SVGqaH0<1R?QSE_a_>@%lA>usBJ0xHw6LJT&h>,&w7oU*t]ftq|s*QDFb|kU!H)9E_zRLE7PxkBm7;]1hQX%4_K0qu4V<vP
 tYLQyR0Ex<1jX|=H:^=n*&oC,NOJPd(N_Ua|V5qonDv9x:2^<Y*p?jd6QrFht093>@idLJZ.&]58Y^PK9:**.FjZe]j3o(7C+f%D[S9(FMu:e,w?8kXM3o
 k4edh]hT|z<VuTZ2&MCm6RZ&20oF&)MToon$:X^t7aI_bWXyID;[V97L[ymomyZwRm5BPHA)mg1F2)8b@)ww:S1&RPUli>U;$QbJ6%fr@lag6:l)b_Yl2$
 C!&cN5!!7zWI|X|95r]fS7B.WKzW.Kh_JGFN:DbeE^BHAFv;25f9ISA=|W,k!^u1q7lSYPAFn!~0st2miF:?]A&S=:N9p5HuLe[YVJ9Jhy<k6I9@RnI*I~
 OV~YGagwY&1RiPUm>PM:;<<lZAAvz9UG.!b$xk!Z=|lS;DPbHi<o3e9?!BOM1mkAlwpO|^jQ,V>GGA&w^1uv.2t7kha|g4=Mn;7Ghz_4fbR5Yo@+CIE4ic
 N+0uCa8hhek<Xov2yYl^.rq%:)B!f2eHT),JNJItwjG.Xiv9^OH^jb|_CDK7$63>g%>ks&BzY6|>@7U:QBgiEILArHCB7)Yv)mqVNp>Zb(J3=Ts5S$S!J]
 tpOZgL*ycF$wx!Z9Nuq6a@lc9~cHUk+QrR=b:dGoKO(@mOIEX75C!F?4oVco.G+HGncZFWp;d$7+l.F&k~Dn!.b6@!0.P33~~Iw[D*PBhc_E]r]+O.:EgS
 r_gyQBUTmw>TnX~]8EgM_4bdCbMHKxwx:_vEX0]pJcXF+L*<?YdI5spRL8rIS737XE.,pj1XgAV=LL8nUQ,kYodg;oEx,ix:$yG$5mA6<?F4p)de[pNA4.
 h8PJPh49?llLcY@jLk++f_UAkr%j!g7jJ5Z.pR1WV?Q1Dqq_UHYll*S0))u7KdOgO:V<s:5O7Z99hwskRxthQzoz><c~)H~+m7$^W]+7:ExH>La0)E!I)_
 E@X*wxd+F8DfnC1:P=4=t.(3)4|uc!j4+hay~*7dCsdWVTFLO4kJh+2o<ym;ezxR,xMpS;aPLYdx&5M?K~RBFRy4G(kM!<RM2z(EH+FhoMFYK@%S7Mj);X
 f,Wyp2VPTPm?lN)+sNpAe~x6$bMJ[Xa%wE7.=;x;:wOHd?2]*by0TJHh|lYfQ=<|1[yxr$3WGYXFFsUQ~0n^>_zjd92mc7:GwEem5.?v|s+Sl^V98>vJD7
 ]vxl)FiOEKq6iiA(6+FgQ=C0:r~l0.&2;~%*a(Osuj^U^lxW8Q!&k&meOR6+,alN:zMWYOrW1i.3ZGW3ofF4vMIs_oiddbV|N6r+j=CJtn]PTSKde]u4s;
 *$1ce3%pEfC*=u*0Ie6ZjR0nO71dA=HCk%66;|IEm(.q~+*,yyk0@EN8$(h,N+=Q3]^z_dItj&U<FM7_i.Mck%,3GZ?SO]!@1S<~4s.:649Mb3K50e[b&4
 ATtW)MPKx1P7Saf4lme9^(VPZF5BAU@;o9Io>O;miYN4hjH=)4u%>Ju?@J<H954gfhJnxvG^H7lO8|v9eBH4YR(i!Wg=1mDpg2ON!Y@@9oQk$Tio$*%.IZ
 $ay^HmURN*X$0+%O:_XXs8ff])dnvcc>$&gFsN24S3P>d5Q:L?$!R3SIRuZ<;(]F&M*277+jkh;Ly[+WsJ+2._]XYvUC7sh9l.?;s9LNL_]gU:Vua,O[z!
 I&5X<T5y2KxV*Ky,_3Cq]nGwHdl.AsrUdH=xzAg809Et!U]GYATJORWM(CkX^;tz;FBrIDPZ*)5_QxnhWn:;Y]8ParY>cu;1H$*&OZ4rTQh]Iwu(<d96mK
 hiLfxHsamrwZfW]PLgV94iXDysr,:fXzFjczrJU=6j:Wps;Rd^z,PA.Mp:]4hJd%jCtKM5Xmk6$]3SlZV&xS2S6U~XY[X&Xlo6Fr4lZ|@oQ:gE|M@[M3%p
 N^shNN>Ie<a2ra&u!^_lc$r=O|Hxoh(MU6!:qQZl[:3>Q1cr~SCDAJ;GCBjv6Q^BieD*L5._v8!s)BWpaCqBj!cRdOj^wBzQVKcwI<+Cf&$$HH~a~jXd5=
 YYf9MNt5pN_?4;4]~|,&GY4O~,ANs?g8k@7pM0D8$k9,TJVT%*A?J[CGWW%NpjASvBUf+L?OfU3N;F3rBwwDKAAMij7xoQ1&^$u=r:f9T|nhZKM?orVNry
 Zw0a5i6f8b^B%JQCye[)cTC9&JX%W2GWaFe4=x^kM9TPP;CJQET!GU.V.pY@[(lwVe8+Kl!$tFmAO;I1i@,x>hPAt~@C5!GpK^TK+dKpOP!AE2xf)DKSnu
 e+I^HHnSteJ?cJ(gQ!~rvTUg2^~F&qU1TMl<$am^BVd:u^t*^2WdY(swO!nk6B)eV>24jPz3B2TejROYiy(OaLjd8NP|Mt0CL@K]|YhVgDXMgw;;NnTMx%
 .Ld7o,9$J:GbF;!AX+lJAHBQOwdVpUQC+n13F@xbuWN_,odUlF_kKb_xu_1JO!mm9q[CpS]zrR3VW!>J%xMT+,=nfc%[DW4d?>q7>?H^k)K1^Nk&3CD,Nj
 ~Vykw23.qs+g0Hy7+7g)8p@MP=gHG=8fHGfWfAZ,)G*_dz4no:Za]nhFQv]D3ZWkw(rMHu[O[*C]<;JQss546L3L_AfAIXFn(Fqw0gyICj5n^K=?R=oGEw
 M=W*jB^_fH_n!df_z;<A.Kd^T|%0*$jv)HokC3yA^K630<kU05n7to1imxa5M7rhj=U]szR[AHB7xJR:@wJGWq*Y_kMM=7xXQPCQSFrWF3p5K<yx.4Z&Z^
 aaJCOIAO9Rr5j2QEiUwA(WQ!>m>ezExs(CRnbqmTcX.yig$M!BC0TK%%$,|HsX59+Pyi^rKnS!F)jKYqaUc)K[+RN^m[_=S4B~<>wgtV[<NL]~QkFM!*<t
 @M8b3kdhPXE@vAtgirH@6rCv!p;:qcY&w>.?K0dCIAO.0gbEdXT]%hGv3Gi7r<vFWxr*HZA|>8jd1YppW&L>id%TTZn541EYIf;1*Kx3=FXLS7d~,7F8EF
 J,)>1b?hb)^oiE%@e&b1,io~!OAF$K,rnlCL@u[A_?2,YMKdFGSC]j$Rx:7);Mv41lv+ZpUaT*f<z=dUh^T.ace[Iu$yTlWsso$U*G&!rS9|AM65$z5Esa
 EgB9~ACP<:aG&;ES:SN51QRmfjQCN;!YyA27tLBZySr;tGY%Et1aiPs<F8[>no;oS.PGQv,XAecxRRT*|).~6(:w(EoKq%(l>.K;=L3XeNA5&)%*V6[Ex[
 VZlq%+ChCw6:tEVPmVqNJ%$PEX2P](g:GpFlo_)bJG:hxupDHaiJeE8Ci2L,G1rG$1do3xFj&>t(QzW;[|lkoZ,7fj@Ya]E]9DgahIZ%^hsZJ|L9v;,anQ
 Jjor]^J6B[XMNg&43yk7iFwpV[W^2ri(;=ql?2Jlm2l:49uy.A0b@x+<iVGEeFu(fC2~3iUI.>w]Q%mr?zp%@ub(ves*+kg&cA^ZmBiM+F2W~n4yUz5%2q
 yNmN9a)o@HDmb=.pqSW7CaRI4kiE55Be!?D%gdai!7D=k|rVTdP~Ywj%wNWI+VVl32:_wlhT@08WR<1lfpm?.sU;>Z:x;RJmp([5CTYD*u+:y2$vDh>R29
 IV<J;ZDQ~l]VqJvR0?F_9kdGhyWo,,Ljg;2a8u5:Z,Or_j)<9n]%qW^HmkF%)OZw8T!RU@Vq;37hVU(;!(DSAC*7N&^t;aMp](b$B~[Hf&q82w7UjvG?oF
 uWgDY,iT|L)qLXYssN~|a,Yujx;T^Tahb>9XCtGW,a6(RWV3E+K[Yv6fM6joXq]|2g=s~&yEj~XYu&vs]1vUk]3xl%cj(OZyHYZI7_*BE]VNz264J09CS~
 0!VO|QrBj4M_dD8@_VHa(D|[+nMl403xqs9=<vNw9kgPlxmBZ.a3CsYk!uChtkU2:6VaODD0?4DYTc,;bh6Yi[.F1FkkD(I?hJ3[NeuOu5ayXNq]vsCt%$
 _wqqB?o5xf1q+(60NfTF5$SQgs9F&WDgy=pb](6,0EBu|MMNg1^h1MK[57:+)4[[Yu53T5H,m1ztA]z:C@=wcKXRUL&7^dnBDKdnIpWuuL)Tl:]uOQuMCS
 L^M@mFqsIu|lNnpkbRy*qpZIJ$Jg9y,0v<C8t9F350F],zd7[6i5>(_$C;JzG?8fjzdFP@=cEkDp:9!Q=xj2NR@irE%cl@yOVb68Tg>p5O^&YpF+>l[acy
 fR0ydD9jOJo+)jN+OGU&P^7d%^4FR:)C%kA:0,.]6f(+UtdP~3mFWb3+9Z^MOFdYp)*rw?gce.UMF3qA:n%PcRseG&R4*zdybc$q~|2^3&c&U&_uEAILAT
 &IDF~AYiBf&yy3>MLyHL+7vVg(Om@c(!TM*!]k$OeJs4>Bb+LBa;4wp*,UJ|7Q*L>^cLivvg5^2g&;jPZH|Z:A$sIH|,;L0x>,<:juWG7$U&c|S+Q?5?9z
 :bK:4RMOmw(toDF|hxkK?_pyk[xknVoCM:sHs*xj@+yJ2]%mS^<z,(7%|xa|00kDK>9;7nugFHna9n)7xI^rp<|fH*.3i$7^.:]!>s[h_D|d2Kr<NH,2Ui
 BUT0|,bwx48^uBdrB%m)oVXmJaCa6.5EXRsH^2z7ElnD%SBX?55x069U3d4ZHrszyh6wou2SK_W&PXQIMJynBn63r[dAMD)Vb4Xz@pJvwb9;2!q,bv>ad>
 8z)lw$;HkOmg<BO]xQTj&s?eFQOF6LdCv;Y0.T8TMXO$u:e7QkjuOL4lkH,)mrW~ZdA*xOwYQh[9Vf2YUtjk2jy3P^)lVghGikv]*OAyVfA;yu8fw:or<]
 x=5~h)tsqxlDC&]u!AZ)Btf2ereun]gYlEnr$B6x:,Dif8W@,!m;eLKTm6E^vA]7*ID3ks1*vk(ML6+nHfG4k=KE9lSyj_:.MIn_*|DGb[NNDS]Jbr%C3F
 S.Eagvn@iQf@pL8KcVs]HwuMDCDIj&8nfxlV<;]>tf<mdsCxRhg_fOs>mW5qO2T_Q++*a8)[=eJ6E+VwXTtQ!sDHAhep2U)hH:se.juYHG[,5y$?BIz)d0
 v,O@(O.5Y?BT><DaU;T*nv]4TPwIJxu~p_H;Q4@8T1RMvMZJ%*YN<@7?NT$i257NS4@tHc^+2ntI%u)]BbyCYMz9X~(UFlR%hBs[:JkeWIaEO[pyB9*U+Z
 B9S+AigOzEc]zf$55oh)FJDbg8]%~AQaYdf!?fYK3^^FE%R~!$5x!CLoThG4aozHIB<j7AbV]il%H?Enb8L?:,GQNcH$:;2@@Mw<F]GF9;l0&0L5?8oI*_
 ]C?0T2;8+R[*Yc_@^GvwMg)l9y&rM)uX=G]&G;=9Rqmw.=U9L8j5VL|+v+<O7~)w+2I(YFSJZwj9!x^35K<PCJc!MPlNjj~U7JLCf%LnG@Bh6oG+Jf2_:u
 wfZN0?>[is3,Bl?k(CpswdW>D[)rKa?9<I[&liPHGF4VHtG(H8wEuE=K=;r+2GC+O=$<etWFXe5xcF_)u~3%_aw^~.Kt*Vh3xDwIpVW2X,QDac.oBHaok@
 ;FtwAE$g%:EAL(6J!ELcWA~8@9jnkqiJG6wSDjO&,t_v29Vld|]OlU(kZ32CA*QS=R;k8=1l6mD~kjGv@xI;f]Y31qUy8ApcFVGegnHt34E=.nqXiXLZCQ
 _)m)N;]40bf7JBZ1qQZ+?%|2KoSlqc2g34QZSMCFtV8=P&rJtDMcx8:c*A>p2c&E4^Crh9[&WIMCYSC%,TfHERuzxy5+yZb&CcaVbEE(6^xTX.%:XU5K!y
 >>fc*_Pi^>%MXxjF2&Fki7I23.?==4^xh>[K_Dr)<W:cjevS;jm|d_[s~h_1UNr%eO=xx%9xHr!nlB5VA^c|.uj)WPnbIu1%NsZxm|~J$Uzk1h<fIdh$A6
 8|*fxrZZrw2|txq~I@3AftRK;AVf2KQt(j|MnSSL~s_g(S[e*Dl7B6?gl6f)2pb(9M$bSytJM[C47qL||T_U,<zRhfq(rg$FQ5FU1PS__1RS9rb=+oL(~p
 tD%MfeDGA;k5dt_nH1?pqe(SSYyk_i>x]wsj:**Uzu:MhE~R4fnmV*GU7L)!27|1I(xx$dQQAMN%;k58is|~yJ(]vXyJ,rXap<el]_j*_x[:gI_O8<:)(|
 %+dA4=N+4N4v23uT!>ZuP,AK35uqb_E+HE_i,P8A8+<3PiC~(0$bF?fd.k_L]g5TtYReH],k|L+Ku!KI+ac||NBHG)d&tKO4<*rtrEP]h*!JycG.d7,@w1
 kpkmO&2VZb_jc>sqHoy:Sxr+na3Uk0fkA*FQFt=J*^t]L=ZyO@qmI]CtQrN,+;B3@mnx+ISDwGb(De_!nB+dP%^AuY~!iJPOJ<bMdijMa_zsbY4@(,42v|
 F0EO|Q|Li5EgHiQi~1=j;)d*H_7A1_RlCbMB8?&i5JV$,jRZy4MdCDO>.avzq(Z~qI(6Ohl2iz3>d:IgV7&aYS=TbTF9V_86i]po+ts_eJ?nB+p<20TbUw
 2<^H&C8TK5bYZ|]q03oYU@P,)vL2IGdk@[LT!=@lN2Bch+.f[V(meRKOsCSJ?B;w%JE*:kE2;aOs!Z>R^5F0CPSX+|_r*O+bU4EO2F:|7(+4jzEEgDdwFU
 loH)yJoU]wi&MDUe6MvP3bu^!PgV8,6u+evT%HCU&$|Xek>o2Yl>M=*nQ60!KKmF4|J20QI7vQG=h&~JNh10_WW|,X,08l_783c)HV4,C@3s*hxFw5HrJi
 l7FU@%d6+UJ_q8AqfSjW:fiMC*L>EC]43Pc]C;609w@hTjE,8;0P^,P,Lu)?ZRH9&]rM$3j,gQ.<J:]GcEe]2,ZNcNls[wEq7Ig=w4|hfs8$3Skaa@@Ev*
 W]j*c8Va$a7<LQHducYRy*I?jwGT,pVQ8<NeGrY3ZPxr&TPSngRiHLk3f3ce.zWfW,mv81zQA=j!0DG*m_=H8w>:Cgx02,6YQ,m73la4!^>=v$|SX!kf8Z
 LJhs0$l6Z6]w<KW@@:Yk>jiW18@!|FgL*v1MQkW1vOBAi+H*FqHpBvkKsF%yiB[xR>5hV1gNJVq==!7s1UQLwl>:RJJ!c_M7iIJL8[$$CFvy1@=PRhkf<~
 6,O0D:UCg38;ogrEe5x28Ty22q1tt)4G&,L+5X9wGc91G^c)*@RhnUQ8ciEKU62Er&0_|H^CUE,w|W:.f:AQKh8!iDzxaMu:f(LrAgjwS1A)lhe,mq_.4B
 Scp,h+YR4jZhNy>Y;00$h)Xe$hyE]8d?@MHEHQCyxWT.JBDN::_gaO:P2xJey>?_%&xUNc2<|*FQYoiL[mVq[:$^aQyFyK3V8JEI0b8~LqJ@p[*z,ikK8U
 !mjKL=0ikN]rofI7>()4);3AYc@)tEZdWauo4^sv7)9GFeLyJvkC0cEXiMAxlRk_nqFu@vU,nUsEqkwPmxvUd=6A37z]14c3+^6UWT&ZnFOjFCiN))H+vu
 fuUvChh![HLA|bQ2nTJK13H*vgEPlCBDKAL:]cnk7[<]Zk[M$FY%u,tx.pmCTZRmV=xYeSC194mm,<fb~h,jj7BgiJomQEQXL1UQDElM(jC~!oZhnut0:I
 &6>i<9qM76k|lj_$PF6)wLKu^yI;oMCwQG<mj<=8EZRu4BNR:r13k^@yw]qEVj)Ty.hI9APNRLZ&L+@&2&h@U2Xy6~[C~3ak9Z4qjo@U<6+4m&nP6tLEBX
 S4hy_Z:>~^>;3Zc+y!2QpTM;1Ox>VPx|p=flWs]B>DY^e2g3W;IXdEIr2Z=4X~C[M.58XL7vPIEvlg.6Fvom;aUdPz&4bQQs[JwiBt:V:LC0@a?xuc*eQG
 2+HxpXHZ4CsGzK(qXa8kUYN8JkAi6?.&iZ.2_^E1eTDv*O7]3]xm93!i+:qm)G>&u_Lp)k_e4s2BD)fu%gI%TnW+Ltx9peZ+=Gx3cWqV(;P:J$9pR2>mxE
 8)9VBxSJVeoPbyLp0CtU+z)pGCwTFL*+b]qAmc6hziRCJztOre(c6gkQ4A%OQxP=HrsYKQiM3P6q4<<Y>IM2V1^Q7xx9<m^LPhQA*Zh(~ooBGrkf3|6vaT
 l$Y%w9_muCIdMRjr?8m=),+xXeIB;a$Wkx<J(,O1N^(5Fra@LsCn5CgNX!?s!,a2h.Woe?ScwR]grF%Vs1~!L%4<JQuCdc_U$ry)=7b>%%mRSefSZ!602X
 PCSr.+LKJ_pev>vGJRR~)^V*wcUZ+0e:rrQEzyr2I>(q=gJ6MDCb5>oo^)~!34aMki)Gd=Nzo*ER(CxkDE;gY%H)9KQ$|lHEB~NMpO;p@+NGK[BNj*c5Y8
 07323!b?X$HT)a<.OZsd2JEs!glwzb6o&OB0w<y6Gg2UwFy&tgIEu~1uUSrqDb9aU>:PtJ*W>[+kG=DgOK$O+=xjn9Xmhd.s<,WiEqY1cjW8)ldwc8W0P2
 ~BjmEuHo_pHi%**MT3,:|l%1,bEziWZ.[CygK,RtDl5aW&1oYjBrYRz=6uCg>)rDgw7+cLyF,VXBv18n4s<gudDn?@Gse]Y!]AkJkm40pI=%![otX>Nwdv
 vXLrAHarK%Xj2GwI)]Z286oyG^9sX^@W2?J*1+P^g.Roim[pf:|^1$($O@wCnVLx3=[jUL5gq<NDv%Bq>)Ff>VrpwTqfmHpnXGSnGlI%RJHy>AFtLSB[PR
 >EiE;QkBD0H)~MRzT.sA7f&J,ul8Dfm@pUzq@E0&m*k?t]En%ZV[G&DX2lX)4yZVNFjPcw!UGUo$*q5CU%EHr_T9LJ&?qyy];&"

def characterAliasData : String :=
  "0=NULL;0=NUL;1=START OF HEADING;1=SOH;2=START OF TEXT;2=STX;3=END OF TEXT;3=ETX;
   4=END OF TRANSMISSION;4=EOT;5=ENQUIRY;5=ENQ;6=ACKNOWLEDGE;6=ACK;7=ALERT;7=BEL;8=BACKSPACE;8=BS;
   9=CHARACTER TABULATION;9=HORIZONTAL TABULATION;9=HT;9=TAB;a=LINE FEED;a=NEW LINE;a=END OF LINE;
   a=LF;a=NL;a=EOL;b=LINE TABULATION;b=VERTICAL TABULATION;b=VT;c=FORM FEED;c=FF;d=CARRIAGE RETURN;
   d=CR;e=SHIFT OUT;e=LOCKING-SHIFT ONE;e=SO;f=SHIFT IN;f=LOCKING-SHIFT ZERO;f=SI;
   10=DATA LINK ESCAPE;10=DLE;11=DEVICE CONTROL ONE;11=DC1;12=DEVICE CONTROL TWO;12=DC2;
   13=DEVICE CONTROL THREE;13=DC3;14=DEVICE CONTROL FOUR;14=DC4;15=NEGATIVE ACKNOWLEDGE;15=NAK;
   16=SYNCHRONOUS IDLE;16=SYN;17=END OF TRANSMISSION BLOCK;17=ETB;18=CANCEL;18=CAN;
   19=END OF MEDIUM;19=EOM;1a=SUBSTITUTE;1a=SUB;1b=ESCAPE;1b=ESC;1c=INFORMATION SEPARATOR FOUR;
   1c=FILE SEPARATOR;1c=FS;1d=INFORMATION SEPARATOR THREE;1d=GROUP SEPARATOR;1d=GS;
   1e=INFORMATION SEPARATOR TWO;1e=RECORD SEPARATOR;1e=RS;1f=INFORMATION SEPARATOR ONE;
   1f=UNIT SEPARATOR;1f=US;20=SP;7f=DELETE;7f=DEL;80=PADDING CHARACTER;80=PAD;81=HIGH OCTET PRESET;
   81=HOP;82=BREAK PERMITTED HERE;82=BPH;83=NO BREAK HERE;83=NBH;84=INDEX;84=IND;85=NEXT LINE;
   85=NEL;86=START OF SELECTED AREA;86=SSA;87=END OF SELECTED AREA;87=ESA;
   88=CHARACTER TABULATION SET;88=HTS;89=CHARACTER TABULATION WITH JUSTIFICATION;89=HTJ;
   8a=LINE TABULATION SET;8a=VTS;8b=PARTIAL LINE FORWARD;8b=PARTIAL LINE DOWN;8b=PLD;
   8c=PARTIAL LINE BACKWARD;8c=PARTIAL LINE UP;8c=PLU;8d=REVERSE LINE FEED;8d=REVERSE INDEX;8d=RI;
   8e=SINGLE SHIFT TWO;8e=SS2;8f=SINGLE SHIFT THREE;8f=SS3;90=DEVICE CONTROL STRING;90=DCS;
   91=PRIVATE USE ONE;91=PU1;92=PRIVATE USE TWO;92=PU2;93=SET TRANSMIT STATE;93=STS;
   94=CANCEL CHARACTER;94=CCH;95=MESSAGE WAITING;95=MW;96=START OF GUARDED AREA;96=SPA;
   97=END OF GUARDED AREA;97=EPA;98=START OF STRING;98=SOS;99=SINGLE GRAPHIC CHARACTER INTRODUCER;
   99=SGC;9a=SINGLE CHARACTER INTRODUCER;9a=SCI;9b=CONTROL SEQUENCE INTRODUCER;9b=CSI;
   9c=STRING TERMINATOR;9c=ST;9d=OPERATING SYSTEM COMMAND;9d=OSC;9e=PRIVACY MESSAGE;9e=PM;
   9f=APPLICATION PROGRAM COMMAND;9f=APC;a0=NBSP;ad=SHY;1a2=LATIN CAPITAL LETTER GHA;
   1a3=LATIN SMALL LETTER GHA;34f=CGJ;61c=ALM;200b=ZWSP;200c=ZWNJ;200d=ZWJ;200e=LRM;200f=RLM;
   202a=LRE;202b=RLE;202c=PDF;202d=LRO;202e=RLO;202f=NNBSP;205f=MMSP;2060=WJ;2066=LRI;2067=RLI;
   2068=FSI;2069=PDI;2118=WEIERSTRASS ELLIPTIC FUNCTION;feff=BYTE ORDER MARK;feff=BOM;feff=ZWNBSP"

namespace CharacterNames

def rowEntry (code : Nat) (words : List Text) (row : Text) : Nat × List Text :=
  let (code, body) : Nat × Text := match row.splitOn ':' with
    | [first, body] => ((hexNumber first).getD 0, body)
    | _ => (code, row)
  let shared := fun (k : Nat) => (body.takeWhile Char.isDigit)[k]?.elim 0 fun d => d.toNat - 48
  let own := body.dropWhile Char.isDigit
  (code, words.take (shared 0) ++ (if own.isEmpty then [] else own.splitOn ' ') ++ words.drop (words.length - shared 1))

def find (name : List Text) (code : Nat) (words : List Text) : List Text → Option Nat
  | [] => none
  | row :: rest =>
    let (code, words) := rowEntry code words row
    if words = name then some code else find name (code + 1) words rest

def findAlias (name : Text) : Option Nat :=
  (tableRows characterAliasData).findSome? fun row =>
    match row.splitOn '=' with
    | [code, other] => if other = name then hexNumber code else none
    | _ => none

def ideographRanges : List (Nat × Nat) :=
  [(0x3400, 0x4DBF), (0x4E00, 0x9FFF), (0x20000, 0x2A6DF), (0x2A700, 0x2B738), (0x2B740, 0x2B81D),
    (0x2B820, 0x2CEA1), (0x2CEB0, 0x2EBE0), (0x30000, 0x3134A)]

def ideograph? (name : Text) : Option Nat := do
  let front := chars "CJK UNIFIED IDEOGRAPH-"
  let digits := name.drop front.length
  if !front.isPrefixOf name || digits.length < 4 || 5 < digits.length || digits.any Char.isLower then
    none
  let code ← hexNumber digits
  if ideographRanges.any fun (low, high) => low ≤ code && code ≤ high then some code else none

def initials : List String :=
  ["G", "GG", "N", "D", "DD", "R", "M", "B", "BB", "S", "SS", "", "J", "JJ", "C", "K", "T", "P", "H"]

def vowels : List String :=
  ["A", "AE", "YA", "YAE", "EO", "E", "YEO", "YE", "O", "WA", "WAE", "OE", "YO", "U", "WEO", "WE",
    "WI", "YU", "EU", "YI", "I"]

def finals : List String :=
  ["", "G", "GG", "GS", "N", "NJ", "NH", "D", "L", "LG", "LM", "LB", "LS", "LT", "LP", "LH", "M",
    "B", "BS", "S", "SS", "NG", "J", "C", "K", "T", "P", "H"]

def longest (parts : List String) (text : Text) : Option (Nat × Nat) :=
  parts.zipIdx.foldl (fun best (part, k) =>
    if (chars part).isPrefixOf text && best.all (fun b => b.2 < part.length) then
      some (k, part.length)
    else best) none

def syllable? (name : Text) : Option Nat := do
  let front := chars "HANGUL SYLLABLE "
  if !front.isPrefixOf name then none
  let rest := name.drop front.length
  let (a, n) ← longest initials rest
  let rest := rest.drop n
  let (b, n) ← longest vowels rest
  let rest := rest.drop n
  let (c, n) ← longest finals rest
  if (rest.drop n).isEmpty then some (0xAC00 + (a * 21 + b) * 28 + c) else none

end CharacterNames

def characterNamed? (name : Text) : Option Char :=
  let capital := name.map Char.toUpper
  let found := (CharacterNames.syllable? name).or (CharacterNames.ideograph? name)
    |>.or (CharacterNames.findAlias capital)
    |>.or (CharacterNames.find (capital.splitOn ' ') 0 [] (tableRows (inflatedTable characterNameData)))
  found.map Char.ofNat

end MacroExpand
