import MacroExpand.Text.CodeTable

/-!
# Decompositions

What characters are made of (Unicode 14), and the classes by which combining marks are ordered.  In a
row of the table the equals sign stands before two characters that are put together again, the
exclamation mark before those that are not, and the tilde before characters that look or mean alike.
-/

set_option autoImplicit false

namespace MacroExpand

def decompositionData : String :=
  "9NFJYfdYPueQJn[!JdCakZS>x6cHFQt,^zc[my5*EYVSHr)N>1S>lSWCb,VQ^fr(6tN)?goLud)0:dYZ8u~%5=vgGKTDZzLN+clxaZBM&xHtICR=fm_3
 UvjH=B50^r0GH;J;Rv^V18shi2bRq=FBQ1+TOm($smck8;_iqh6xDY1%A5KhdErUgXZ|LrH_sf4DO(FVL,@M$Mi)8?S,qOJO@?Bs8a(pvcW1|O$dF_A2P8
 YR[my$).d1Grf_uw$)Bh%V3JSC!mvXmT<_|Bv^+4a0zo7$@F1(9=AAH;?c?NSbajr<D_Smzotj6:9C+gQ<zg|>1>K3f]xLkLUaFsOEWMv657hq]Z>x^C6F
 Oka,)|~jp>g&?L_j~Res%umqvX3<+Ox~aOKbd3N1e2iq2(H_1giMFZq*Cz%3dD<Cu^e+1yn7M$)>*Mu[@8[LRC1i&5Vbr%sF2Iw;ETOy[o,1hV%Y*MIK)]
 ZLtQzLGP=7F9XnA,(2C+Y%)JS9lzMTZ+Bk,=c]uqj>v&mhNtF^2k_hon.+|;)j+*>sT~:Lv5ONd)?wkFCIvz0(ri2i$MaTKZi$UJOopN5rf!1xKF*0=:w+
 6SB:(x1;aoYm8a&c=6er3@[<ru=RAD+aku.eD,Szm8G3jRgrhewxq*9jxTcd]x&)FpBTH*A6D!9w.$zu>t.MNCnkgNvGRcMTTiZ>s+&Wb<,?O1%lUl|2Nj
 >Ac=N8rI861~Gg)x>1)($]nVXLin+:>sb1;AD8wDd|9~V2Ro8sc%t$!Rk1m6c,7Oj>ShnJGg^GN7]Fh;We.VKUY);mCrq9YIk4:(b0~PKGs0D3Kl_A7|Sa
 qLJ%ep?&KKoUO0VeDxrrjVqmpY[R0;Wy95!p%5IF3viK9>K3fTaM8,j*<P[YOv|H7Vtu?z[aN5U>fWMJwpS=|>*TAT0qRjQWe?ihxE7RfS^g<H~o=(FoQc
 ?3rvX7;6yA59DEj%,d&C9Wi5eyv29ROKi>D.l8b)1v?Q5_qDD[Q23T,K^?:xV(]DoY!r0>oEi*r=s&xPGjA@BxwSmjtBl>TyWJ^~IJ*8Vsd&BS,&rTan!f
 (Q2+KE,zhGF=]!g<CX%ZlIIrZd<r8e*OJ(w52O%&60g2_y*Yh1hCCA;c%BrHiW4zLLqf&A!wE!iG*35@+p8hUIt:,<HVWAE&29fXsqFSdf@:[$r!cVce_V
 QZcG1r8J6ZoUfskz@%&6Y$5_%)lGYXP[s~1gnhV^!jMw]!;8xxnDQq?gRM?Cwd@M^BAkX@.juB8zSxM|4^wm;%XJQ=>(YRs(x.gou,]9X<T3w&gk@~JY:n
 Y1X?4GI3BhUZNJhZ(ILrtg>dmm2J$vOcB1HEuU=>eM~W5S5VJMxZkvSm,iA:dNzSUKRB+r6~z7XPp60.;UiIL[[Z8fkS;A7[6htU2;R)ktMTrWm2Rw>^Ya
 LtJ[Kj3_>hZ+[0p^Xlz5=lTYTaX4gdj0lO1@xJz<YE4__z::U1<,8CRc[37uzkses+G]!okCue2hSlAJ6Kw<)|*FalYK%@zvdNQj^<GTk;IzzA)r8,MEoF
 wrhLS?jZdHqPZ>(I?,D$V9Gv^f|qVhrG1&&ke.j1$n5_mtI;6+]MP8CWV9hO%ipK[@cFQJ,c^NYTXQn!pSJo(l;HfVRmlh3w2Tln]e]WJ3Pkfn3ce?A=VH
 0X3f4E+g,T,Fi)8fDaIMd%O<,.<d9i<V:$)06HB;s,4G;xADUjNzV(+_DI6Bw4Z$IeF]3r.S|EWMJ;OINS=x;=$KSbEkCnaNIp|=8M,|7a7+UUx7y(G+wy
 XnXD%KCwp3(IOmwvk<+ef7Q<VC^J=$4BRKIr9lc32N2nq,TAk(XsTW1=[BycgXX]oWq*DyahgS?jG:VHR2Axje+BT>2~fH@9<Sk[4iWN[XT1.c0>k%LhgP
 fk<0fh%T>_n8wPeDm2Zd^QVYV%ftCc.*~IT(q~m:20h(rG~cX1RZk1VaJz6$c_c=lo5Lsd(iz[yRRybB!_jYI7tDB9Nr8w4_!m@u*(W:rJE.b?Uz1q0vE1
 w<(cLMn8qTBP5Tv(iP?@284D@](EoS=DUB!3%,ULn36&cO3ELY6X>O|vN[+nSYEjz8,iz%hR>,zzl9FpM=9y)vZpck^@Dt%vdmr=lTjo(4X8|M]@e1kujZ
 8%V[z]=sUhk+NX?,dWxeQQaT3?ZMCfoxb2gtn[Ou?ToRNnEXE&Pv@Y)B2~vR,wnJ<8Z?e!F2Q>uFx|;qHzwUd8jrn>^8&Ylm03%5ZzZwNqz>Z3r1Bm2V+B
 .4Js[8%RjLJ1yVQJ&f(<=P5N^D<e%3N0:J?%XLq,?y<P,6.sp|uyWiWVHkD4Y*5sRm2A^wDTCuH6,5M+jw3o@fWa>4Y.W:IV:rVkra2jPG<nQ(CdaDlPfs
 q$eBGS=q^=Mh(7IjMOdB.9SpBp9jD;G~MsP?X7D+iSceF9Q3wkkXT@ZI(QNUT;VUL^v?g!sJL8Y4O5x2)Z0AxZ=&YOj&4m^w%Q2u:OKRC2mHU1nWNQurm:
 IbnvjKCQw)!BL$+Rdqrs8!O7niccPxoQ]M2_(:Hg<W!E?AoaU:,o8*<2b.J]6I_F(xz<xAtO)u)y|.>&wefk@w|7^9NtemP74;Kr]O0>>6Ss:m(Blg+GH$
 o?3gQY@?esY;,]28KV]nBsqi0Esjz^SgdGqd@aC<u%;r$9;Zy@dR,bBY>A[DF:~L_?F_|[y6tWK(]F?[8LQ)(FH!=~;g^RON*FeJ@sCF:H=vwsbOv:9~AM
 _Co@WeGit(*hFybmwrt(ZNp+OZ5<V0>*&.6M$ITl|29PUG^hW]$ZuF4Eykd.Vt9krq456lsKtZoV>PNZX~O7ip0|Rs0wtG|awnsH&:W^kfs@cy!mnIU6F0
 jcK=r0tyM!rC9y)w$]T(skHu,K][y3wQ1<n04ZnKc*3n]Rs,_H6mfTdJDHC9K*Q9w?cGG(@ucrllNP!kAvnGXs8aWTo_=!xul23VpoX(i;x~5$;al8fhE7
 Ma+0tv_M?>vw+;TMWrWdZP+HliEWSgUWZ5K~tT;EAte4<>K]oRs6;z[]@[lHytKL^uf)q@zqawG+z<WJ&Ea_:C@4[.:=ey;GtR^2>M%uBaYGy>dN:2mbUX
 IUx7)iWiCpi2K=?@abJO7V>ZQO(hFHjBfU]QZ!dc>LH]t%|[|i?z!lN>mUELYm7z6(8v4%gj!C%5AaHF8P3jDeWP@kD0gHeWQ^=x<Q:M%I;F@r>hL,?7%4
 vxoH!^Q>td6z=Ev4gmC)hgZk>,T>gG)o7:vo_eGZT2l0.A,lqWRdL>ZZIJu<+qh(eK!;hsjNp]b,MX[Y%]~B8t1I@f+n6,Ronlrl(c*4$*Az~Sw7IN9NDe
 %3qR%L^>8Zd5C@v~&u^4CGb]C_@R,H^~Ym3jDOOtV;CiT&&yBK?4A4bunW)1E%lhI(|FPQCZDDQS7ZP8o>+1=cmsgB;w?539?EsU8!G(_.V]mY]5ju|iGl
 w()wHW3!;XccNn%400]nafL6iwKp3O@8ZSP.19Xr?_@O8:JY>;oN:7|lrCm?^jmd]_SG52@]?6g.EVA<Zzv0~jyouxat_0GN+y*[Xl.N6_MLeJEzu82]NF
 XSmehns?_|Wi?bXus*v+M8&Qus2[&Dl:2]b[KgT3|stt2n_tO_Vb4p2Z|vvbJkKq+x1UfGW*ffyTvw*Q>zy_@kAlr0<r@6WxO^6k^!D&)Bk6$|?ItV]Ayt
 v~1fH]s2X@8k5Zq8jrxr+hK?o|h!2.k~,=SU5Nerk?&,og*g0X$scudq@Oar%Yly^goHct^9sGI.By?bRVXfd4fF..<yE^m(mU_Vv4Pa^%sx@X)eTGj?>P
 4L(aMQVotCr]VG*163FvUcKFue?jI4%%_5B0H[n%idSw.8nSH($t5P1~nGo2D_+(4V$ofC$DJr*75FzU.w52.h4hmUEQSyyCVm2rM$gHRCnqfLw2QIIbo.
 EX,pGE3TXeu~A.9<?JihS9j*HZ6%U<whQuh18!R<9PxXZGe:o^R$(2ilvy_20FvWaFwntKw(Ts|B[PAZpY1jJ;Gj]XE8MJ,c_f>dj0KeDVq4?co;=X0@&O
 h[yAMrj(nJSvMoS@BV(w3STl=3X!wN[|!UR?]%zFXnM^c9FH2qy)!QUn05|v@dJ?ke<*!~uX<2$khkJa3L!3O.>J;ZZcQk1A*8k:=r=!Ai1)k|Yk~O>B&m
 KN@@uM~UY:zPi$(fss@DyNNhnCs.qyKPtT8V!.V?T)Za12rA)~PSAPB+ZNzo6|IpTSS:$c^vrUhYSt<D8WvuEsf@vkda@*%Z3uiv*2@~dHyz$F*1xH,>7F
 t&8pNFnDN3GGT44h%A08xsaV%&MstS!<LVm_VqnQC)9=302cf>TON?7P6dy0i~Vp>.=;taG.!9J^(3&EnFpcWI?3]jlyD6S752y3O(F~psL9m0&pR1;ETo
 )im:w:o+Bdvq?*5;UD8ksefz~RSYjwpS<LLW*n[+q_+A6cr]uaLEe(F?CW$DMk&5_3h=zPr4G4ZIAs!z_@+7s;cN>1*hKVaj3Zaiq7mOtJKJc1i!L%ieka
 k2<F72$)!ek&!5mM<a25Oa+9M*iK@0E6@&WK8me|jes=rJO8E(Hc5p3Tr%O]ttni40t5muj4l!ucN(RW$Y;+SQ>!+k9;?mVB?fX7_]A*DHYa$t7VTUIw@e
 HkeMNZRu2ZhvpExa[u^D$acX)EnEeV1~&*UJ53EkqJ03,)7;W2Fa~Z,T=wZ97MO1]enA@16wG!=Sc3I_[(8hyEkS%A9Op;u[cO(,2M;19^F($c2WgQ[D~T
 zHp.w=E.pw:!j0*$<Qw@PA3y8Im5Sx:MGOk|JszVw@:6,NEgAG@r^i!()!~yElgOIYZ*I,dy$6g~[Oz!p7eze*ho^&k5);iF69)=dPM>f;uGX4jEz(l8Qw
 uij&m]m?=_q:Ho,~b%GVG,k:Lcp04h)ep:HrssO?BxF08<yE,qx]FePKUzPBD8o.r)&BaF%(]e_V_a6O;b_R!w*kJ7CX(Ni?V$zTHTk_&5XX*Vun?wCL$i
 EB<,~zsDe[)%z:X9(^)rS8Qg:rf$0g8,py<Os3DCNSw^+AmJsvlt60?bRn@w!7X|7_*AJ5^E3ZolnDsZQO6]OB$VYw3*3DyD_5qLnBtj]8]~W[_jD8>YiR
 H[+U$~$5ds4cuEK)sjt3O,Au+f1R4.V7;a3l,i+uY]<<1.L>(BerTSwzr,(Sn(s&Qy)dCw^t3n<N447iuBy5j?FfdGSh4oyI|Id1azIFHQv6n*:Y3*ORQ[
 6F:RJv(5ZLcwU!05TR!^7d3Ol^GyG:k3u.=9;[VR;CA@N=Fom+@NtE*CH!$=w6eDT*HXf!>b@[*1:6xne3awGv5eVWVF=8LCvwWDKK]SRk2LE))0+O=cP<
 ^bz*9w?!A8OLY,uh.=8b9AG@%78vZne66Z,A7dfgY>:;QVI4L)&ji8BlEn9)FeKL@V:;b0wsD1l[6vtUL7[!gN;2nrU3v+gsNqR~>$.@uGSCp(SU9*|(+9
 1;W0uce|bhmntFG5=9WNKPwONj:Ws$~m@NkgP[JxJ0feFuw@BVMBDFl@uOrGA>sPE;)oou.4uX(49!et^5SNxjWqSmVA*c3@3yH*<9OCdw_[s<4125whux
 CIuE+aR7cvEMjykD]>eWQk<5(btxGCp^<2L^9FN;mVE2s%>Bc]KFb~GhFcbDCqrA].4jE>jr?mB|rNJ;ptHD%C&R]BXwK!YVrKOtdlW$!QmzOg_mcb.]BX
 Kgp.,P&TtueIUSvyP([Rce5h5K0Rp3i~B,XtWhnha:6jt+(jY:Yc2=V$rU=)Lmt?Ac~Hj_~@!CInKpu=NkmJI5<%Ea[6>2([l6.,U3,.wg*MJ|&8H:S.%v
 FFpxh+&|?0dLieQ^?!b:bn;8[4X*kM<LhiYpT4,ExjmbF!f2Z;Dc~9PZEJ1;9f[?,FF%=kuc;K,H7Tr,m_!D0kDvt8mXtf^f!b7~2x?AqG]e|SEs3kGXn?
 a[IDjrEF%C<xGLe.k(!pFuDeQ>6)WRgWZDA7b(;bVjyA_,L_Yj[e_aue<O5OpH7Pzj=d4RFbDX%rX1=NxxadP8Wio&NQP+_Ddc&u9Xv.|Pye,mQzZ13v$o
 ~S(OcVlV5BDp2<j2N7^=0z~|^Fv.wIzp)DtWVJQ23!]7!XsQELoh<qw<sz|_S|+9?S)p!gSDogm&G,6d9b^a4fQ!fjcei,IBy4C0*8w+RTvaOJ6fm~Ik%l
 xwWY!Qt=!dD6TTHy_LpuqFDxez09v>~gfRe7urq7pw(FG=Xy*,LX|@46bc)?k;0f5r%O>3E9tW(ImMmxQNktC%cgS=9dBsmF94qSO$2:lDNi<2Mks6_|VA
 _$F=0ylzK>e!:Do8l%9ROeLvG%h_NkLB2tj26|tL%BxJIr!J8fR^=jHdX3bkhj|;7,H1h9wTiwD[,+>W&@YB=r>EsZ.3[MX4?e5z^(,v20),r~SSU4:Qjs
 $kX?+@^eG32]X:zk[l1LqJWehqSk9Ztg>U>bAukHts(Er.AAo^I=GL54gNUT<L=y+@B>(epw<iZ.o$589JUzhM5KuNx?C@VcHDA2(v!Xa=,Sv6NW]~I_?A
 ]my&|;a[!hQBlaxze=bO8<a>Tt;uX9Q+RS.JOuTwxi>iOG(z)b;2rwBY4RTV>g^m>=:Sr!sd2oxKg7m0:!KcMXcv~pFyH$AJ+5dmn:F@y?v3j(HOP;oWn*
 ADBc=VTM8Frn^%^sg@jQ=85|5s7TmqD>>e+6J25Pqey=:=qxi95KBF[Tcom*Hp7Ol.fg=<hiCQGvg<[T5F7Gbkq:_bzjA<8(Fk6hQ8i]sNAJqjg:,tK(uP
 <V$H<CKEOUI,^G9F_1:C=iaXbN3S6y@95LLg*>@.[iaf*.1)KUfPHokt(Tn+f(BGhTol=!(>>jb1?kZ3oI&6tiKshxE8j9=!_*aKjATT~*izL?0Ujs%vlt
 StDl?UVvQV(4+B1Nq8q)9S(bPlK$1RKJI+A0qH6GyCJwEf8l$g@+bPN~6!a?8NrIj*8wLM_;OQXmqoQHTo=0*PeM9guK79_Q<%CUq7VQa^E((psgx.djM0
 eEh]G:Sf*XD?q&t0G@);PReU:K^hqz>zWh%tt%0;D6WQcq(::ry7x[wiw1ElbG_tq:|>>Y38Metdv&sAc[Q0e)tB7sV$W@HoEa5ue[E]yMEOG<*u,DNxN[
 @0^<q[r5kmFqShRF[=n;e<Ju$qE>?=zgr0|,]F]>;*ZgE.f[Ft[C5m?DO:c;x@aC?!*lya]n7d$A<5NkLWK=IsQ1AL8|*Hqf6a?SBOvxQ5&^Sa22[MvyGY
 >Rct]pf?dKmjA^+A~F&361B)k$F[;b^$JF[_9]idRi=R_x.sJxGbqKWtA&nxIpi7=U@+IkuNjd&L7|&R!&mVId[Ve):VXus2gT.;Md9XLCR^NaRemqrg|K
 >8Hb$&G;0_J8DeZId2>Xk(32Tpd4!EzSd04SqjV65sGc$3pTSB0_(hm3ro+]A)Jn@[j?Ou@ks@eAdLnQRmiS(o@4Z)ytw2m5bR>LL9$LGqUw_=>)@tivC_
 Fq,4gugKG2nzxW?dKHlW@kE].ewY=30$<U2g7+jEnXZw,6Q.dG[w@3WUBp=acM7m(2Z?EDzq~r?rOc^>+T^!yLGCkUTu;2zTUC>.maAk$qCR=Nj5.3Rx(^
 x1!@!P@Ia7_j%o%&:cTXifc1N^V879V[[$%FX@5F>|0*]H(%)sdk[QAXTsV4_ZDI0hS=ZC%5p>VtZ3&?n8yC4Gx~5ov=COB+NarD.5ki(@vt1OV!yk4^7&
 ?.7w:uVl_eFsw1*A]I;Gs,d]m@RsrC_8Y6YJpK6Enb$PqrrbsQ86mr|Ld=~bG$Uw?U=4;N6?<7bC@[+(6IBI1>F$mg6$*R56HZ=FwJYb*^NvD+gO1^,DGw
 6e4k1*LU0<7hs_L,>BwG9[Igx,*d$S9*k,gf$BAR[_;=?7fRh3nA[PI19jJ]>hjfF7u2PcF.%gF;,i,W&Bw$:K)%hdrSR!WbL^NHD6[tTMRa84$$%oS)~[
 eG!~Q;&L.(*ADqof5t>:!qi]ie3d!B=(sc)5bks0TVl^>A_nSjXS.?e7u.pLE30;Ps:^pw=Kx6P&[6^Ng+hneIirA_2<AST,_@ZOicabVZYJ|!W,+Tvjp[
 af4iLmn)2j_D$V(kWIC!Z,w=ulZ5bd:E.2Aw9E@I;y?=yk8x&me3PUj].KOOLho5Tm;7%|jpniX0;]S0(=SC,MIIHOWs1?6*>Jsr|uh1crO5Tj>8@Lf7[0
 6IsabS@.hZI*(|]J0)Hel|Q0ri8>;R)<AV>z*=[%8Q%jSECNP^dJB*DX0Ei|bn~QQVe0[uMnlZEAp5MDj95a:aw$_e*@bq5A2!A]rrfODOvcUR8>ZvCl*v
 )EsKDwR<hoT7Zz2,xSPrkt5X8ATnK0Y=0Hl=&6$QvUSSIicP*t]yg6C^U.5m;wp)fimT)@3,):UO2,llj2&OB_GbUXvYnZ_XXjaDJr>oTHSlvg&sTR!C5!
 U*_~).!fA$c4_y?v<*P?<;M6lvp2kXyi|1kNO0$Jz0M=85~HzZ0K2:Bor.pbfX5JoYonuHU&[|$9I:*)*9JD2@zcAUh$Vi]Xe7t&>;hmMzDhrHuHDZ>xp]
 tlMGg[QL%4@Seu(UP840G&O0r3ax:At3PsT*qqmt2Iv@3X[Mjq,qx:09:2?6Rk7=]dj6AAbu@@S5VdXeLP?*~mOMBkdSx4)aehx^$ZhGm~1mV~wsw_9D09
 k@9Xx;i@?yECw[pQ5kJqdruSqQr,Z2ud2GKJaEHfB1m*AD0WUG^GR@<H9HvPDYeWLYCSD4Y),vP686L^va8RFr5xawppLHm2nf4j8dFD9Knd2>j[L$%ou4
 PI%d=e]CoR[$|OR53DqwQ5s,*1,>TEeMgr=;^2O*5i9)y9SOP*QCXyr+Yg1;wf]e9?wJcSR_<q|;Un_wyzSdHRh>t+Z_|sdP;=k0yBB8=TK|83^O;mXPAk
 :leGlI*qAe(CRErCxTKS3ay^ueehDUFVz6=V~B92uEE1s+;NMT)@w:oRD6ET^_LSaYRtkCHKm5085XhLpddAj@>5X,~Ya3&hh:*QmlFvmgGym>0M=]KTDO
 hl:y&$6kHJ[|D|y|914rj;(&U|JT14D(qGn92O~BjFB^uAxOiHImI6:rWGG@1w+Q!$Jw^g(UfV22O2i&~lNhoD?5lt^^?qkCoOU0w7eg.qDDwKwcXn*O8>
 gD<J*2_?@hiF%I[V@+:Sc^;0YOD$R:Gz7&dP8ET<|v@iix2JgVtyNZ+ANQA?UOGuH:dTf5&n;*yW)5*).<oFtm%$5&]@SCFnqllrQcURucUMLfopO&q[@0
 AE~V9W<jizIm?Bf(U:8]7d9eIL4+x3ObhK^HY5vDf)D$9YLL5qP:NZaO4fGCKa!GTHI~&ftd(5FMTUq)6IHvGTDX2P~I0P*fU,@8aqkV5=_.O;k004@pQE
 c2^:,_+MQhC2WOJ>wg~@!h%NrtudM4Y2u<Uvx$?q>Ws:@,~6sSn|2ih%qT3dXlG2aMz3;Hr(%!::B|.Ekg6I&&1X(xOr];1F3z:TONP9Y,8R$a=rY$EN6_
 A3hLJ*79KKTE8SSphlgGcQV%]BPTcW5bPL4M2;vrMWW:lHuak3dkR[k.FvNK^@j+<O_2UFAM$FeynY.0AoBw~[3Ygz.EcbSMZWwA64*G.g1SHBiBdp*Kq2
 VsG!mY$,zNi<Hcbsc@[0Y*Q6*lJKosL2jPCF$(n!(PpO$%iUMxBef+8V58W]w^BXc.CZ&H?4g6mTtSK,<MqydE8<lhIt=boPN~]_G_Q]wcGq;tjAk(2ij4
 2T7B)eowe~x23~)*9=97xu.4qboAv3CZ[V]:F?C]3n|Yu0unqkMQGIX406^P9:6hxkM6ef1h$N.]dKVqmkk+3~]Czx>)3QVL*PZHU*F59id*oq1mf,R2o?
 D<L.BY<~enY!3_>r,w<f9^&?9$zBf<i<>)~>40>%&d&%>?hGoHBl0UmS@HNd[lpiQ[My8IcHQZ*oMY6$Gx5D2)MW.QT_?R>,n3d]WM)i5dNlC1PO+agbb4
 xKP;aB~7L6u?U]3R|=Acb9kP+1D;_5b?s1,>(TLOIl)ap6gI>~FTh@@@k:zUlJi[!ccE29A20<([@WG@UzbA>fQa,RN_,9tUIQU843.^?g,3^8f1IN70d*
 AD;Mir4dU)^b_s~yifI[Vx1ze0b;5cWbg]x*MuZq.Hwkx1kMrNVAa_;*oq8<g043!%Q2S^O8;I3eP*3BcS$?J3!O[.IdYTCIz0Xjz!hgux,5MQS<S&la6q
 &PIM9@50b5.IW=A)9~Lyl5vZ?S|>Lg+xXsTu+ysJyPF1iROM5]woGmP!:OH(w^g+OIHrg@7Gx_O7<ns=M%8lSkvs;$V5DhGTisGn%MYm:K$^D6T*(~xtB3
 %c[Ym9+h(d<9lh0q[wlU7Q9=DvvaIQRDjQx;_MP*&u:01eXJlTah=%41A5)IQ]cZvc^]cFy3Gl=]kWVk)&W$~ZRE5D!.rA$C)T_&@!!7$XI^dC5_VLlLb7
 VfL8,K>PI?R?R?v:buifw<Y^5UY$H=brT&^SBbHvC]60JV&>*RvxvgY0.q?r33+?vNG8k:tmOsXT*CLqlp>$g7~[lC^JlgnC._U[276EG4BeAzAlH2^@cb
 6r%Ng3Ud:556VWP;j9mK6RTTsp~$EMqd$aAyyvQ+Qk&:OivE7(BKZF:(G+WO5Hzc4u|xm>P750RLL7_9?6YHk$[s<YrdeaF^~^TLL(G|L.NmK!XnZ<bM?=
 qt219kOve|t[RO4OFo&ZRC38u|zU@bq=kq6QVmc@M*ob:L<i.oA_G16*%w[F.3XqSr>X(0)qRBm@A]N|)Pt8WxEtuRmv>w5qpB,0V1UuszPI*f@]p83Lb.
 ~31c$Vg|Ndtu%Eb=i$Gg~b,[CngPHRXttSQs>2s>J~uU.c@nBY~xqiOzv)CcmG5v&pHc<8R&(S+.3vvA[[EKC1Myk&u=6N$cv^7YnFDa!a)Y=[[ArE;D(L
 g[~VyZ!^%SScJsAUjUC4$+dC,XO|c?;NroePgx9b2A%eV_7ICpQPYx0.wVT:Dmol!Z?6h<(@l_49XN3L,;gJ_jd>R2OG]:J[NLYH&oQ9<,YDMns!&[SjDC
 vkm.t5V=?|le0$L,I$!gqm%:R5>@ugA%nEP7Oo+a%emsXdpzLF@[[8|fKc$*KJqVev5lK4c[EOzn?!W6[<3>OPOq6j@:xIBiM~COO*mJT8&DHtN$6X+:k@
 Fwx$qmz5:En$eHs68)maj10+9ahD2?V=eBgldsmbXQjnv?m9ENBljZ@cbU]q%jGtuO$OXyu!iq7Ly24@(6+C35QboG.Nl7mLcl&>7__^m>yP*1E!V>[,[:
 5j!8(.]dGjbU,1f64JDPQqjgV>[N,q)x6U6FkdkNc>Jgh6g_DbTd*(8iomaRlaxOhmwuvH[zM(=t^8xIY*7$GH2.d;?~e@CO3X5RkZce_PS7qF?=r)9lFE
 _ax?^m12&vuwK.:Ntmq^LE_IQwl6sjf6O6pF$(qX^CFzt$0<7(^[hPEoffW:7uDf1E>4Rwffh6Y&V|E08zOD5;:)6ptF$8uf,2ffMC0f_fD,Ofg2gE%N$?
 $Be%j3$Jkhnejt@T03|_7OCJDU$8w|k%NjKxR=oU$t.j>.$T0le)4PhAL@PQ7_h~>!!S4mb&,>PqJvN^,HFxN]V<,xW@7Nv&$36qO$Hmj]Lc4%_nXey^Kh
 pDj.YLMfD|xzzg$$CcLX=ZFPGrmuAh>^0S^l4o+u*kW!(~iv4k*p7g^:I^>eIlpTAgYf1t%t2[H~gwmJaEAxa!fHg+%BtQ=&1.,bxI@ENhx@she.*kj~,[
 9|8J|1FKf5MKxUpgIe~)*F7V|;BgPL9pw8FUg&X(I975bTmW!VZ=QWUip7L<A4(PCxFT)s6SCY7mom&I(eegFqx<,bajkr<)DAzAYr!XoS^ocIoI8S,0)D
 9mHUQ|k^?NZI=Mx@[h44ZvQ7TIrq%F0((P$=)ps8wyQ2G,=NQN<I@_xg4xj9Xoknx?EU.Z97;f[d%pr6y(>gJ=fv!+C^%d>+5]w4_3D6)vzWia~Fj~b&Jp
 Z,gh,5mYp7OrgD;|Z!qeI7Tf4w4K=6G1hSf(H]?C],D=(O[kJ0)|wWfmq~XV|voY4F55G_|[we:7c0877gS+AQ+wKJ1pysPBKf5@wZyJUGKtVxG4|IUfGk
 ww1DFqk&GSbOoIbmAj5aRhjhD(^XJ*baR:k%XjFe0F48gEGl8~B+nB>A4SBX0WW9FivwcdFLvyxgnD+o.Q!.q^EdfxjG9|Wny$;GIAHp,!JJ^_j$:Te@g|
 Wmk5D[rcT0%eLqqkxVnBaeI:Gum)FtYNq!NPY(YRT7Ky1+erp,vwwxG3LYCy720hcMW.XKS!?9?)^v6K(cyrBdU*=nMDqG%h3nyDhZ7HvmN6Y2T&+Aj~AO
 %PUJw.<_+sf1h.Thq@LYFu4@1P53Rg55!)zlq;PvoD6]&HU[@t4v]_ns_dQ%cuUhC5~wTpG3Db)+NWDe.%L3FVIEz(bXl[zLb$x,so0B=uh*t)1@Wg=JW5
 $8j9,zC+[RgXF%&.Gs.TKP2xBf0(VvRnqJ|%dM=cV8^~.&n,c81k<KF5(qE[Z3G5[jrxTk%6T01]WPVj9GN;>RdGc)jr_dM,[=md2q0,gXGe%?z0t?v,?Q
 K)aH^Lzg5DJVD@l:!.pKByECxXKywXHv&nh!kkM])TAGSQ;)Xm$nS5G*oCJ7K?[9>)__GmrGS[bA%FZ9ce;<kznM]eFsBTudkgh7q%U3y(xj0o6qkQb1jy
 $(1a;[Gjn)(KK~.T,[oAlO%q,f6T,zreqDvGi[EeuMQ3wxo,(@lki*:Vyw0P4]N>,rI)>jvGTjF!WUHbh4*3u12W]5E5nC?Ir_VFu?eD[(QLXBEKSIQ$Pa
 P]y56m_ewUzAJqM46>WS&2lIp7TFidL:N$!5RX3UZ@O54&+>Ui*hTlxVb_DO7V1kXOi:hzgU2ms4)3=na6KRiJthjmv0Jl&3HXail+8<C0+c==!JT,uipG
 Ivf71Z[;P3=~&^@dEsj?YAr9R+]V0bpqrOPNxNSBYH5q>>yXXzfFDh3f!e>_TOqMBCQY!S<iWmB2d1=m)f~xvwDFTp^x&S5+R&Bn_jbq(,!5;P09)?v![=
 qiabs1.Ym;xk6sWfr6MI[qI%2(beW?(F_N.FHpt>Y%DMUO9"

def combiningData : String :=
  "300+15=e6;=e8;+4=dc;=e8;=d8;+5=dc;+2=ca;+4=dc;+2=ca;+b=dc;+5=1;+4=dc;+8=e6;=f0;=e6;+3=dc;+3=e6;+2=dc;350+3=e6;
   +4=dc;=e6;=e8;+2=dc;=e6;=e9;+2=ea;=e9;+2=ea;=e9;+d=e6;483+5=e6;591=dc;+4=e6;=dc;+3=e6;=de;=dc;+6=e6;+6=dc;+2=e6;
   =dc;+2=e6;=de;=e4;=e6;=a;=b;=c;=d;=e;=f;=10;=11;=12;+2=13;=14;=15;=16;5bf=17;5c1=18;=19;5c4=e6;=dc;5c7=12;610+8=e6;
   =1e;=1f;=20;64b=1b;=1c;=1d;=1e;=1f;=20;=21;=22;+2=e6;+2=dc;+5=e6;=dc;+2=e6;=dc;670=23;6d6+7=e6;6df+4=e6;=dc;=e6;
   6e7+2=e6;6ea=dc;+2=e6;=dc;711=24;730=e6;=dc;+2=e6;=dc;+2=e6;+3=dc;=e6;+2=dc;=e6;=dc;+3=e6;=dc;=e6;=dc;=e6;=dc;=e6;
   =dc;+2=e6;7eb+7=e6;=dc;=e6;7fd=dc;816+4=e6;81b+9=e6;825+3=e6;829+5=e6;859+3=dc;898=e6;+3=dc;+4=e6;8ca+5=e6;+5=dc;
   +e=e6;8e3=dc;+2=e6;=dc;+2=e6;=dc;+3=e6;+3=dc;=1b;=1c;=1d;+3=e6;=dc;+2=e6;+2=dc;+5=e6;93c=7;94d=9;951=e6;=dc;+2=e6;
   9bc=7;9cd=9;9fe=e6;a3c=7;a4d=9;abc=7;acd=9;b3c=7;b4d=9;bcd=9;c3c=7;c4d=9;c55=54;=5b;cbc=7;ccd=9;d3b+2=9;d4d=9;
   dca=9;e38+2=67;=9;e48+4=6b;eb8+2=76;=9;ec8+4=7a;f18+2=dc;f35=dc;f37=dc;f39=d8;f71=81;=82;f74=84;f7a+4=82;f80=82;
   f82+2=e6;=9;f86+2=e6;fc6=dc;1037=7;1039+2=9;108d=dc;135d+3=e6;1714+2=9;1734=9;17d2=9;17dd=e6;18a9=e4;1939=de;=e6;
   =dc;1a17=e6;=dc;1a60=9;1a75+8=e6;1a7f=dc;1ab0+5=e6;+6=dc;+2=e6;=dc;1abf+2=dc;+2=e6;+2=dc;+5=e6;=dc;+4=e6;1b34=7;
   1b44=9;1b6b=e6;=dc;+7=e6;1baa+2=9;1be6=7;1bf2+2=9;1c37=7;1cd0+3=e6;1cd4=1;+5=dc;+2=e6;+4=dc;=e6;1ce2+7=1;1ced=dc;
   1cf4=e6;1cf8+2=e6;1dc0+2=e6;=dc;+7=e6;=dc;+2=e6;=ea;=d6;=dc;=ca;+25=e6;=e8;+2=e4;=dc;=da;=e6;=e9;=dc;=e6;=dc;
   20d0+2=e6;+2=1;+4=e6;+3=1;+2=e6;20e1=e6;20e5+2=1;=e6;=dc;=e6;+2=1;+4=dc;=e6;2cef+3=e6;2d7f=9;2de0+20=e6;302a=da;
   =e4;=e8;=de;+2=e0;3099+2=8;a66f=e6;a674+a=e6;a69e+2=e6;a6f0+2=e6;a806=9;a82c=9;a8c4=9;a8e0+12=e6;a92b+3=dc;a953=9;
   a9b3=7;a9c0=9;aab0=e6;aab2+2=e6;=dc;aab7+2=e6;aabe+2=e6;aac1=e6;aaf6=9;abed=9;fb1e=1a;fe20+7=e6;+7=dc;+2=e6;
   101fd=dc;102e0=dc;10376+5=e6;10a0d=dc;10a0f=e6;10a38=e6;=1;=dc;10a3f=9;10ae5=e6;=dc;10d24+4=e6;10eab+2=e6;
   10f46+2=dc;+3=e6;=dc;=e6;+4=dc;10f82=e6;=dc;=e6;=dc;11046=9;11070=9;1107f=9;110b9=9;=7;11100+3=e6;11133+2=9;
   11173=7;111c0=9;111ca=7;11235=9;=7;112e9=7;=9;1133b+2=7;1134d=9;11366+7=e6;11370+5=e6;11442=9;11446=7;1145e=e6;
   114c2=9;=7;115bf=9;=7;1163f=9;116b6=9;=7;1172b=9;11839=9;=7;1193d+2=9;11943=7;119e0=9;11a34=9;11a47=9;11a99=9;
   11c3f=9;11d42=7;11d44+2=9;11d97=9;16af0+5=1;16b30+7=e6;16ff0+2=6;1bc9e=1;1d165+2=d8;+3=1;1d16d=e2;+5=d8;1d17b+8=dc;
   1d185+5=e6;+2=dc;1d1aa+4=e6;1d242+3=e6;1e000+7=e6;1e008+11=e6;1e01b+7=e6;1e023+2=e6;1e026+5=e6;1e130+7=e6;1e2ae=e6;
   1e2ec+4=e6;1e8d0+7=dc;1e944+6=e6;=7"

end MacroExpand
