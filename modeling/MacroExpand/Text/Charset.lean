import MacroExpand.Text.CodeTable

/-!
# Character sets of one byte

In these encodings the bytes below 128 are the ASCII characters and the others are given by a table.
A byte that a table leaves out stands for no character.
-/

set_option autoImplicit false

namespace MacroExpand

/-- The upper halves of the character sets.  A set may name one in front of it; its rows are then those that differ
from it, with a minus sign behind bytes that stand for no character. -/
def charsetData : List (String × String × String) := [
  ("cp437", "",
    "80=c7;=fc;=e9;=e2;=e4;=e0;=e5;=e7;+2=ea;=e8;=ef;=ee;=ec;+2=c4;=c9;=e6;=c6;=f4;=f6;=f2;=fb;=f9;=ff;=d6;=dc;
     +2=a2;=a5;=20a7;=192;=e1;=ed;=f3;=fa;=f1;=d1;=aa;=ba;=bf;=2310;=ac;=bd;=bc;=a1;=ab;=bb;+3=2591;=2502;=2524;
     +2=2561;=2556;=2555;=2563;=2551;=2557;=255d;=255c;=255b;=2510;=2514;=2534;=252c;=251c;=2500;=253c;+2=255e;
     =255a;=2554;=2569;=2566;=2560;=2550;=256c;+2=2567;+2=2564;=2559;=2558;+2=2552;=256b;=256a;=2518;=250c;=2588;
     =2584;=258c;=2590;=2580;=3b1;=df;=393;=3c0;=3a3;=3c3;=b5;=3c4;=3a6;=398;=3a9;=3b4;=221e;=3c6;=3b5;=2229;=2261;
     =b1;=2265;=2264;+2=2320;=f7;=2248;=b0;=2219;=b7;=221a;=207f;=b2;=25a0;=a0"),
  ("cp737", "cp437",
    "80+11=391;+7=3a3;+11=3b1;=3c3;=3c2;+5=3c4;e0=3c9;+3=3ac;=3ca;=3af;+2=3cc;=3cb;=3ce;=386;+3=388;=38c;+2=38e;
     f4+2=3aa"),
  ("cp775", "cp437",
    "80=106;83=101;85=123;87=107;=142;=113;+2=156;=12b;=179;93=14d;95=122;=a2;+2=15a;9b=f8;9d=d8;=d7;=a4;=100;=12a;
     a3+2=17b;=17a;=201d;=a6;=a9;=ae;ad=141;b5=104;=10c;=118;=116;bd=12e;=160;c6=172;=16a;cf=17d;=105;=10d;=119;
     =117;=12f;=161;=173;=16b;=17e;e0=d3;e2=14c;=143;=f5;=d5;e7=144;+2=136;+2=13b;=146;=112;=145;=2019;=ad;f2=201c;
     =be;=b6;=a7;f7=201e;fb=b9;=b3"),
  ("cp850", "cp437",
    "9b=f8;9d=d8;=d7;a9=ae;b5+2=c1;=c0;=a9;bd=a2;=a5;c6=e3;=c3;cf=a4;=f0;=d0;+2=ca;=c8;=131;+3=cd;dd=a6;=cc;e0=d3;
     e2=d4;=d2;=f5;=d5;e7=fe;=de;+2=da;=d9;=fd;=dd;=af;=b4;=ad;f2=2017;=be;=b6;=a7;f7=b8;f9=a8;fb=b9;=b3"),
  ("cp852", "cp850",
    "85=16f;=107;88=142;8a+2=150;8d=179;8f=106;91+2=139;95+2=13d;+2=15a;9b+2=164;=141;9f=10d;a4+2=104;+2=17d;+2=118;
     ab=17a;=10c;=15f;b7=11a;=15e;bd+2=17b;c6+2=102;d0=111;=110;=10e;d4=10f;=147;d8=11b;dd=162;=16e;e3+2=143;=148;
     +2=160;=154;ea=155;=170;ee=163;f1=2dd;=2db;=2c7;=2d8;fa=2d9;=171;+2=158"),
  ("cp855", "cp850",
    "80=452;=402;=453;=403;=451;=401;=454;=404;=455;=405;=456;=406;=457;=407;=458;=408;=459;=409;=45a;=40a;=45b;
     =40b;=45c;=40c;=45e;=40e;=45f;=40f;=44e;=42e;=44a;=42a;=430;=410;=431;=411;=446;=426;=434;=414;=435;=415;=444;
     =424;=433;=413;b5=445;=425;=438;=418;bd=439;=419;c6=43a;=41a;d0=43b;=41b;=43c;=41c;=43d;=41d;=43e;=41e;=43f;
     dd=41f;=44f;e0=42f;=440;=420;=441;=421;=442;=422;=443;=423;=436;=416;=432;=412;=44c;=42c;=2116;f1=44b;=42b;
     =437;=417;=448;=428;=44d;=42d;=449;=429;=447;=427;=a7"),
  ("cp857", "cp850", "8d=131;98=130;9e+2=15e;a6+2=11e;d0=ba;=aa;d5-;e7-;=d7;ec=ec;=ff;f2-"),
  ("cp858", "cp850", "d5=20ac"),
  ("cp860", "cp437",
    "84=e3;86=c1;89=ca;8b=cd;=d4;8e=c3;=c2;91=c0;=c8;94=f5;96=da;98=cc;=d5;9d=d9;9f=d3;a9=d2"),
  ("cp861", "cp437", "8b=d0;=f0;=de;95=fe;97=dd;=fd;9b=f8;9d=d8;a4=c1;=cd;=d3;=da"),
  ("cp862", "cp437", "80+1b=5d0"),
  ("cp863", "cp437",
    "84=c2;86=b6;8d=2017;=c0;=a7;91=c8;=ca;94=cb;=cf;98=a4;=d4;9d=d9;=db;a0=a6;=b4;a4=a8;=b8;=b3;=af;=ce;ad=be"),
  ("cp865", "cp437", "9b=f8;9d=d8;af=a4"),
  ("cp866", "cp437", "80+30=410;e0+10=440;=401;=451;=404;=454;=407;=457;=40e;=45e;fc=2116;=a4"),
  ("cp869", "cp850",
    "80+6-;=386;-;=b7;=ac;=a6;+2=2018;=388;=2015;+2=389;=3aa;=38c;+2-;=38e;=3ab;=a9;=38f;+2=b2;=3ac;9d+3=3ad;=3ca;
     =390;+2=3cc;+7=391;ac+2=398;b5+4=39a;bd+2=39e;c6+2=3a0;cf+7=3a3;+3=3b1;dd+2=3b4;e0+c=3b6;=3c3;=3c2;=3c4;=384;
     f2+3=3c5;f6=3c8;=385;fa=3c9;=3cb;=3b0;=3ce"),
  ("cp874", "", "80=20ac;85=2026;91+2=2018;+2=201c;=2022;+2=2013;a0=a0;+3a=e01;df+1d=e3f"),
  ("cp1125", "cp866", "f2+2=490;=404;=454;=406;=456;=407;=457"),
  ("cp1250", "cp874",
    "82=201a;84=201e;86+2=2020;89=2030;=160;=2039;=15a;=164;=17d;=179;99=2122;=161;=203a;=15b;=165;=17e;=17a;a1=2c7;
     =2d8;=141;=a4;=104;+4=a6;=15e;+4=ab;=17b;+2=b0;=2db;=142;+5=b4;=105;=15f;=bb;=13d;=2dd;=13e;=17c;=154;+2=c1;
     =102;=c4;=139;=106;=c7;=10c;=c9;=118;=cb;=11a;+2=cd;=10e;=110;=143;=147;+2=d3;=150;+2=d6;=158;=16e;=da;=170;
     +2=dc;=162;=df;=155;+2=e1;=103;=e4;=13a;=107;=e7;=10d;=e9;=119;=eb;=11b;+2=ed;=10f;=111;=144;=148;+2=f3;=151;
     +2=f6;=159;=16f;=fa;=171;+2=fc;=163;=2d9"),
  ("cp1251", "cp1250",
    "80+2=402;83=453;88=20ac;8a=409;8c=40a;=40c;=40b;=40f;=452;9a=459;9c=45a;=45c;=45b;=45f;a1=40e;=45e;=408;a5=490;
     a8=401;aa=404;af=407;b2=406;=456;=491;b8=451;=2116;=454;bc=458;=405;=455;=457;+40=410"),
  ("cp1252", "cp874",
    "82=201a;=192;=201e;86+2=2020;=2c6;=2030;=160;=2039;=152;8e=17d;98=2dc;=2122;=161;=203a;=153;9e=17e;=178;
     a1+5f=a1"),
  ("cp1253", "cp1252",
    "88-;8a-;8c-;8e-;98-;9a-;9c-;9e+2-;a1+2=385;aa-;af=2015;b4=384;b8+3=388;bc=38c;be+14=38e;-;+2c=3a3;-"),
  ("cp1254", "cp1252", "8e-;9e-;d0=11e;dd=130;=15e;f0=11f;fd=131;=15f"),
  ("cp1255", "cp1254",
    "8a-;8c-;9a-;9c-;9f-;a4=20aa;aa=d7;ba=f7;c0+a=5b0;-;+9=5bb;+5=5f0;+7-;+1b=5d0;+2-;+2=200e;-"),
  ("cp1256", "cp1252",
    "81=67e;8a=679;8d=686;=698;=688;=6af;98=6a9;9a=691;9d+2=200c;=6ba;a1=60c;aa=6be;ba=61b;bf=61f;=6c1;+16=621;
     d8+4=637;+4=640;e1=644;e3+4=645;ec+2=649;f0+4=64b;f5+2=64f;f8=651;fa=652;fd+2=200e;=6d2"),
  ("cp1257", "cp1252",
    "83-;88-;8a-;8c-;=a8;=2c7;=b8;98-;9a-;9c-;=af;=2db;-;a1-;a5-;a8=d8;aa=156;af=c6;b8=f8;ba=157;bf=e6;=104;=12e;
     =100;=106;c6=118;=112;=10c;ca=179;=116;=122;=136;=12a;=13b;=160;=143;=145;d4=14c;d8=172;=141;=15a;=16a;dd=17b;
     =17d;e0=105;=12f;=101;=107;e6=119;=113;=10d;ea=17a;=117;=123;=137;=12b;=13c;=161;=144;=146;f4=14d;f8=173;=142;
     =15b;=16b;fd=17c;=17e;=2d9"),
  ("cp1258", "cp1254",
    "8a-;9a-;c3=102;cc=300;d0=110;d2=309;d5=1a0;dd=1af;=303;e3=103;ec=301;f0=111;f2=323;f5=1a1;fd=1b0;=20ab"),
  ("iso8859_2", "cp1250",
    "80+20=80;a1=104;a5=13d;=15a;a9=160;ab=164;=179;ae=17d;b1=105;b5=13e;=15b;=2c7;b9=161;bb=165;=17a;be=17e"),
  ("iso8859_3", "cp1252",
    "80+20=80;a1=126;=2d8;a5-;=124;a9=130;=15e;=11e;=134;ae-;=17b;b1=127;b6=125;b9=131;=15f;=11f;=135;be-;=17c;c3-;
     c5=10a;=108;d0-;d5=120;d8=11c;dd=16c;=15c;e3-;e5=10b;=109;f0-;f5=121;f8=11d;fd=16d;=15d;=2d9"),
  ("iso8859_4", "iso8859_2",
    "a2=138;=156;a5=128;=13b;aa=112;=122;=166;af=af;b3=157;b5=129;=13c;ba=113;=123;=167;=14a;bf=14b;=100;c3=c3;
     c5+2=c5;=12e;cc=116;cf=12a;d1=145;=14c;=136;d5=d5;d8=d8;=172;db=db;dd=168;=16a;e0=101;e3=e3;e5+2=e5;=12f;
     ec=117;ef=12b;f1=146;=14d;=137;f5=f5;f8=f8;=173;fb=fb;fd=169;=16b"),
  ("iso8859_5", "", "80+21=80;+c=401;=ad;+42=40e;=2116;+c=451;=a7;+2=45e"),
  ("iso8859_6", "", "80+21=80;a4=a4;ac=60c;=ad;bb=61b;bf=61f;c1+1a=621;e0+13=640"),
  ("iso8859_7", "cp1253", "80+20=80;a1+2=2018;a4=20ac;=20af;aa=37a;ae-;b5+2=385"),
  ("iso8859_8", "cp1255", "80+20=80;a1-;a4=a4;bf+b-;cb+e-;df=2017"),
  ("iso8859_9", "cp1254", "80+20=80"),
  ("iso8859_10", "iso8859_4",
    "a2=112;=122;=12a;a6=136;a8=13b;=110;=160;=166;=17d;ae=16a;=14a;b2=113;=123;=12b;b6=137;=b7;=13c;=111;=161;=167;
     =17e;=2015;=16b;cf+2=cf;d3=d3;d7=168;dd+2=dd;ef+2=ef;f3=f3;f7=169;fd+2=fd;=138"),
  ("iso8859_11", "cp874", "80+20=80"),
  ("iso8859_13", "cp1257", "80+20=80;a1=201d;a5=201e;b4=201c;ff=2019"),
  ("iso8859_14", "cp1252",
    "80+20=80;a1+2=1e02;a4+2=10a;=1e0a;a8=1e80;aa=1e82;=1e0b;=1ef2;af=178;+2=1e1e;+2=120;+2=1e40;b7=1e56;=1e81;
     =1e57;=1e83;=1e60;=1ef3;+2=1e84;=1e61;d0=174;d7=1e6a;de=176;f0=175;f7=1e6b;fe=177"),
  ("iso8859_15", "cp1252", "80+20=80;a4=20ac;a6=160;a8=161;b4=17d;b8=17e;bc+2=152;=178"),
  ("iso8859_16", "iso8859_15",
    "a1+2=104;=141;a5=201e;aa=218;ac=179;ae+2=17a;b2=10c;=142;b5=201d;b9=10d;=219;bf=17c;c3=102;c5=106;d0=110;=143;
     d5=150;d7=15a;=170;dd=118;=21a;e3=103;e5=107;f0=111;=144;f5=151;f7=15b;=171;fd=119;=21b"),
  ("koi8_r", "",
    "80=2500;=2502;=250c;=2510;=2514;=2518;=251c;=2524;=252c;=2534;=253c;=2580;=2584;=2588;=258c;+4=2590;=2320;
     =25a0;+2=2219;=2248;+2=2264;=a0;=2321;=b0;=b2;=b7;=f7;+3=2550;=451;+f=2553;=401;+b=2562;=a9;=44e;+2=430;=446;
     +2=434;=444;=433;=445;+8=438;=44f;+4=440;=436;=432;=44c;=44b;=437;=448;=44d;=449;=447;=44a;=42e;+2=410;=426;
     +2=414;=424;=413;=425;+8=418;=42f;+4=420;=416;=412;=42c;=42b;=417;=428;=42d;=429;=427;=42a"),
  ("koi8_t", "koi8_r",
    "80=49b;=493;=201a;=492;=201e;=2026;+2=2020;-;=2030;=4b3;=2039;=4b2;=4b7;=4b6;-;=49a;+2=2018;+2=201c;=2022;
     +2=2013;-;=2122;-;=203a;+5-;=4ef;=4ee;a4=a4;=4e3;+2=a6;+3-;+4=ab;-;+3=b0;b4-;=4e2;+2=b6;-;=2116;-;=bb;+3-"),
  ("koi8_u", "koi8_r", "a4=454;a6+2=456;ad=491;b4=404;b6+2=406;bd=490"),
  ("kz1048", "cp1251",
    "8d=49a;=4ba;9d=49b;=4bb;a1+2=4b0;=4d8;a5=4e8;aa=492;af=4ae;b4=4e9;ba=493;bc=4d9;+2=4a2;=4af"),
  ("mac_cyrillic", "cp1251",
    "80+20=410;=2020;=b0;=490;=a3;=a7;=2022;=b6;=406;=ae;aa=2122;=402;=452;=2260;=403;=453;=221e;b2+2=2264;=456;
     b6=491;=408;=404;=454;=407;=457;=409;=459;=40a;=45a;=458;=405;=ac;=221a;=192;=2248;=2206;=ab;=bb;=2026;=a0;
     =40b;=45b;=40c;=45c;=455;+2=2013;+2=201c;+2=2018;=f7;=201e;=40e;=45e;=40f;=45f;=2116;=401;=451;=44f;ff=20ac"),
  ("mac_greek", "mac_cyrillic",
    "80=c4;=b9;=b2;=c9;=b3;=d6;=dc;=385;=e0;=e2;=e4;=384;=a8;=e7;=e9;=e8;+2=ea;=a3;=2122;+2=ee;=2022;=bd;=2030;=f4;
     =f6;=a6;=20ac;=f9;+2=fb;a1+2=393;=398;=39b;=39e;=3a0;=df;aa=3a3;=3aa;=a7;ae=b0;=b7;=391;b4=a5;=392;+3=395;
     +2=399;=39c;=3a6;=3ab;+2=3a8;=3ac;=39d;c3=39f;=3a1;c6=3a4;cb=3a5;=3a7;=386;=388;=153;d1=2015;d7+2=389;=38c;
     =38e;+3=3ad;=3cc;=38f;=3cd;+2=3b1;=3c8;+2=3b4;=3c6;=3b3;=3b7;=3b9;=3be;+4=3ba;+2=3bf;=3ce;=3c1;+2=3c3;=3b8;
     =3c9;=3c2;=3c7;=3c5;=3b6;+2=3ca;=390;=3b0;=ad"),
  ("mac_iceland", "mac_greek",
    "81=c5;=c7;84=d1;87=e1;8b=e3;=e5;92=ed;=ec;96=f1;=f3;=f2;9b=f5;=fa;a0=dd;=b0;+2=a2;=a7;=2022;=b6;aa=2122;=b4;
     =a8;ae=c6;=d8;=221e;b5=b5;=2202;=2211;=220f;=3c0;=222b;=aa;=ba;=3a9;=e6;=f8;=bf;=a1;c3=221a;=192;c6=2206;cb=c0;
     =c3;=d5;=152;d1=2014;d7=25ca;=ff;=178;=2044;=20ac;=d0;=f0;=de;=fe;=fd;=b7;=201a;=201e;=2030;=c2;=ca;=c1;=cb;
     =c8;+3=cd;=cc;+2=d3;=f8ff;=d2;+2=da;=d9;=131;=2c6;=2dc;=af;+3=2d8;=b8;=2dd;=2db;=2c7"),
  ("mac_latin2", "mac_iceland",
    "81+2=100;84=104;88=105;=10c;8b=10d;+2=106;8f+2=179;=10e;93=10f;+2=112;=116;98=117;9d+2=11a;a0=2020;a2=118;
     ab=119;ae=123;+2=12e;=12a;b4=12b;=136;b8=142;+4=13b;+2=139;+2=145;=143;c4=144;=147;cb=148;=150;ce=151;=14c;
     d8=14d;+2=154;=158;+2=2039;=159;+2=156;=160;e4=161;+2=15a;e8+2=164;eb+2=17d;=16a;f0=16b;=16e;f3+5=16f;=dd;=fd;
     =137;=17b;=141;=17c;=122"),
  ("mac_roman", "mac_iceland", "a0=2020;dc+2=2039;+2=fb01;=2021"),
  ("mac_turkish", "mac_roman", "da+2=11e;+2=130;+2=15e;f5=f8a0"),
  ("ptcp154", "cp1251",
    "80=496;=492;=4ee;=493;86=4b6;=4ae;=4b2;=4af;=4a0;=4e2;=4a2;=49a;=4ba;=4b8;=497;98=4b3;=4b7;=4a1;=4e3;=4a3;=49b;
     =4bb;=4b9;a4=4e8;=498;=4b0;aa=4d8;ad=4ef;af=49c;b1=4b1;b4=499;=4e9;ba=4d9;bd+2=4aa;=49d"),
  ("tis_620", "iso8859_11", "a0-"),
  ("hp_roman8", "",
    "80+21=80;=c0;=c2;=c8;+2=ca;+2=ce;=b4;=2cb;=2c6;=a8;=2dc;=d9;=db;=20a4;=af;=dd;=fd;=b0;=c7;=e7;=d1;=f1;=a1;=bf;
     =a4;=a3;=a5;=a7;=192;=a2;=e2;=ea;=f4;=fb;=e1;=e9;=f3;=fa;=e0;=e8;=f2;=f9;=e4;=eb;=f6;=fc;=c5;=ee;=d8;=c6;=e5;
     =ed;=f8;=e6;=c4;=ec;=d6;=dc;=c9;=ef;=df;=d4;=c1;=c3;=e3;=d0;=f0;=cd;=cc;=d3;=d2;=d5;=f5;+2=160;=da;=178;=ff;
     =de;=fe;=b7;+2=b5;=be;=2014;+2=bc;=aa;=ba;=ab;=25a0;=bb;=b1")]

def encodingAliases : List (String × String) := [
  ("ascii",
    "646 ansi_x3.4_1968 ansi_x3.4_1986 ansi_x3_4_1968 cp367 csascii ibm367 iso646_us " ++
      "iso_646.irv_1991 iso_ir_6 us us_ascii"),
  ("latin_1",
    "8859 cp819 csisolatin1 ibm819 iso8859 iso8859_1 iso_8859_1 iso_8859_1_1987 iso_ir_100 l1 " ++
      "latin latin1"),
  ("utf_8", "cp65001 u8 utf utf8 utf8_ucs2 utf8_ucs4"),
  ("utf_16", "u16 utf16"),
  ("utf_16_be", "unicodebigunmarked utf_16be"),
  ("utf_16_le", "unicodelittleunmarked utf_16le"),
  ("utf_32", "u32 utf32"),
  ("utf_32_be", "utf_32be"),
  ("utf_32_le", "utf_32le"),
  ("cp437", "437 cspc8codepage437 ibm437"),
  ("cp775", "775 cspc775baltic ibm775"),
  ("cp850", "850 cspc850multilingual ibm850"),
  ("cp852", "852 cspcp852 ibm852"),
  ("cp855", "855 csibm855 ibm855"),
  ("cp857", "857 csibm857 ibm857"),
  ("cp858", "858 csibm858 ibm858"),
  ("cp860", "860 csibm860 ibm860"),
  ("cp861", "861 cp_is csibm861 ibm861"),
  ("cp862", "862 cspc862latinhebrew ibm862"),
  ("cp863", "863 csibm863 ibm863"),
  ("cp865", "865 csibm865 ibm865"),
  ("cp866", "866 csibm866 ibm866"),
  ("cp869", "869 cp_gr csibm869 ibm869"),
  ("cp1125", "1125 cp866u ibm1125 ruscii"),
  ("cp1250", "1250 windows_1250"),
  ("cp1251", "1251 windows_1251"),
  ("cp1252", "1252 windows_1252"),
  ("cp1253", "1253 windows_1253"),
  ("cp1254", "1254 windows_1254"),
  ("cp1255", "1255 windows_1255"),
  ("cp1256", "1256 windows_1256"),
  ("cp1257", "1257 windows_1257"),
  ("cp1258", "1258 windows_1258"),
  ("iso8859_2", "csisolatin2 iso_8859_2 iso_8859_2_1987 iso_ir_101 l2 latin2"),
  ("iso8859_3", "csisolatin3 iso_8859_3 iso_8859_3_1988 iso_ir_109 l3 latin3"),
  ("iso8859_4", "csisolatin4 iso_8859_4 iso_8859_4_1988 iso_ir_110 l4 latin4"),
  ("iso8859_5", "csisolatincyrillic cyrillic iso_8859_5 iso_8859_5_1988 iso_ir_144"),
  ("iso8859_6", "arabic asmo_708 csisolatinarabic ecma_114 iso_8859_6 iso_8859_6_1987 iso_ir_127"),
  ("iso8859_7",
    "csisolatingreek ecma_118 elot_928 greek greek8 iso_8859_7 iso_8859_7_1987 iso_ir_126"),
  ("iso8859_8", "csisolatinhebrew hebrew iso_8859_8 iso_8859_8_1988 iso_ir_138"),
  ("iso8859_9", "csisolatin5 iso_8859_9 iso_8859_9_1989 iso_ir_148 l5 latin5"),
  ("iso8859_10", "csisolatin6 iso_8859_10 iso_8859_10_1992 iso_ir_157 l6 latin6"),
  ("iso8859_11", "iso_8859_11 iso_8859_11_2001 thai"),
  ("iso8859_13", "iso_8859_13 l7 latin7"),
  ("iso8859_14", "iso_8859_14 iso_8859_14_1998 iso_celtic iso_ir_199 l8 latin8"),
  ("iso8859_15", "iso_8859_15 l9 latin9"),
  ("iso8859_16", "iso_8859_16 iso_8859_16_2001 iso_ir_226 l10 latin10"),
  ("koi8_r", "cskoi8r"),
  ("kz1048", "kz_1048 rk1048 strk1048_2002"),
  ("mac_cyrillic", "maccyrillic"),
  ("mac_greek", "macgreek"),
  ("mac_iceland", "maciceland"),
  ("mac_latin2", "mac_centeuro maccentraleurope maclatin2"),
  ("mac_roman", "macintosh macroman"),
  ("mac_turkish", "macturkish"),
  ("ptcp154", "cp154 csptcp154 cyrillic_asian pt154"),
  ("tis_620", "iso_ir_166 tis620 tis_620_0 tis_620_2529_0 tis_620_2529_1"),
  ("hp_roman8", "cp1051 csHPRoman8 ibm1051 r8 roman8")]

def Charset.isKnown (name : String) : Bool := charsetData.any fun row => row.1 == name

def Charset.rowsFrom (name : String) : List (String × String × String) → List CodeRow
  | [] => []
  | (last, base, data) :: before =>
    if last == name then
      let rows := codeRows data
      let others := (Charset.rowsFrom base before).flatMap fun row => row.members.filterMap fun (byte, k) =>
        if rows.any fun r => r.first ≤ byte && byte < r.first + r.count then none
        else some { row with first := byte, count := 1, targets := [row.targets.headD 0 + k] }
      rows.filter (·.mark == '=') ++ others
    else Charset.rowsFrom name before

def Charset.rows (name : String) : List CodeRow := Charset.rowsFrom name charsetData.reverse

def Charset.character? (rows : List CodeRow) (byte : Nat) : Option Nat :=
  if byte < 128 then some byte
  else rows.findSome? fun row =>
    if row.first ≤ byte ∧ byte < row.first + row.count then
      some (row.targets.headD 0 + (byte - row.first))
    else none

def Charset.byte? (rows : List CodeRow) (code : Nat) : Option Nat :=
  if code < 128 then some code
  else rows.findSome? fun row =>
    let target := row.targets.headD 0
    if target ≤ code ∧ code < target + row.count then some (row.first + (code - target)) else none

end MacroExpand
