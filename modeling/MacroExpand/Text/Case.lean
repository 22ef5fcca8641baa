import MacroExpand.Text.CharacterClass

/-!
# Upper and lower case

The case of a text by the full case mappings (Unicode 14).  A run of characters whose other case lies
at the same distance is one row of a table: first and last code point, step, and distance.
-/

set_option autoImplicit false

namespace MacroExpand

/-- Runs of characters whose other case lies behind them or in front of them, and how far; a second number is the step. -/
def caseRuns (data : String) : List (Nat × Nat × Nat × Int) := (codeRows data).map fun row =>
  let distance : Int := row.targets.headD 0
  (row.first, row.first + row.count - 1, row.targets[1]?.getD 1, if row.mark == '<' then -distance else distance)

def caseWords (data : String) : List (Nat × List Nat) := (codeRows data).map fun row => (row.first, row.targets)

def upperRuns : List (Nat × Nat × Nat × Int) := caseRuns
  "b5>2e7;e0+17<20;f8+7<20;>79;101+2f<1 2;131<e8;133+5<1 2;13a+f<1 2;14b+2d<1 2;17a+5<1 2;<12c;>c3;183+3<1 2;188<1;
   18c<1;192<1;195>61;199<1;>a3;19e>82;1a1+5<1 2;1a8<1;1ad<1;1b0<1;1b4+3<1 2;1b9<1;1bd<1;1bf>38;1c5<1;<2;1c8<1;<2;
   1cb<1;<2;1ce+f<1 2;<4f;1df+11<1 2;1f2<1;<2;1f5<1;1f9+27<1 2;223+11<1 2;23c<1;23f+2>2a3f;242<1;247+9<1 2;>2a1f;
   >2a1c;>2a1e;<d2;<ce;256+2<cd;259<ca;25b<cb;>a54f;260<cd;>a54b;263<cf;265>a528;>a544;268<d1;<d3;>a544;>29f7;>a541;
   26f<d3;271>29fd;<d5;275<d6;27d>29e7;280<da;282>a543;<da;287>a52a;<da;<45;+2<d9;<47;292<db;29d>a515;>a512;345>54;
   371+3<1 2;377<1;37b+3>82;3ac<26;+3<25;3b1+11<20;<1f;+9<20;<40;+2<3f;3d0<3e;<39;3d5<2f;<36;<8;3d9+17<1 2;<56;<50;>7;
   <74;3f5<60;3f8<1;3fb<1;430+20<20;+10<50;461+21<1 2;48b+35<1 2;4c2+d<1 2;<f;4d1+5f<1 2;561+26<30;10d0+2b>bc0;
   10fd+3>bc0;13f8+6<8;1c80<186e;<186d;<1864;+2<1862;<1863;<185c;<1825;>89c2;1d79>8a04;1d7d>ee6;1d8e>8a38;1e01+95<1 2;
   1e9b<3b;1ea1+5f<1 2;+8>8;1f10+6>8;1f20+8>8;1f30+8>8;1f40+6>8;1f51+7>8 2;1f60+8>8;1f70+2>4a;+4>56;+2>64;+2>80;+2>70;
   +2>7e;1fb0+2>8;1fbe<1c25;1fd0+2>8;1fe0+2>8;1fe5>7;214e<1c;2170+10<10;2184<1;24d0+1a<1a;2c30+30<30;2c61<1;2c65<2a2b;
   <2a28;2c68+5<1 2;2c73<1;2c76<1;2c81+63<1 2;2cec+3<1 2;2cf3<1;2d00+26<1c60;2d27<1c60;2d2d<1c60;a641+2d<1 2;
   a681+1b<1 2;a723+d<1 2;a733+3d<1 2;a77a+3<1 2;a77f+9<1 2;a78c<1;a791+3<1 2;>30;a797+13<1 2;a7b5+f<1 2;a7c8+3<1 2;
   a7d1<1;a7d7+3<1 2;a7f6<1;ab53<3a0;ab70+50<97d0;ff41+1a<20;10428+28<28;104d8+24<28;10597+b<27;105a3+f<27;105b3+7<27;
   105bb+2<27;10cc0+33<40;118c0+20<20;16e60+20<20;1e922+22<22"

def upperSpecial : List (Nat × List Nat) := caseWords
  "df=53 53;149=2bc 4e;1f0=4a 30c;390=399 308 301;3b0=3a5 308 301;587=535 552;1e96=48 331;=54 308;=57 30a;=59 30a;
   =41 2be;1f50=3a5 313;1f52=3a5 313 300;1f54=3a5 313 301;1f56=3a5 313 342;1f80=1f08 399;=1f09 399;=1f0a 399;
   =1f0b 399;=1f0c 399;=1f0d 399;=1f0e 399;=1f0f 399;=1f08 399;=1f09 399;=1f0a 399;=1f0b 399;=1f0c 399;=1f0d 399;
   =1f0e 399;=1f0f 399;=1f28 399;=1f29 399;=1f2a 399;=1f2b 399;=1f2c 399;=1f2d 399;=1f2e 399;=1f2f 399;=1f28 399;
   =1f29 399;=1f2a 399;=1f2b 399;=1f2c 399;=1f2d 399;=1f2e 399;=1f2f 399;=1f68 399;=1f69 399;=1f6a 399;=1f6b 399;
   =1f6c 399;=1f6d 399;=1f6e 399;=1f6f 399;=1f68 399;=1f69 399;=1f6a 399;=1f6b 399;=1f6c 399;=1f6d 399;=1f6e 399;
   =1f6f 399;1fb2=1fba 399;=391 399;=386 399;1fb6=391 342;=391 342 399;1fbc=391 399;1fc2=1fca 399;=397 399;=389 399;
   1fc6=397 342;=397 342 399;1fcc=397 399;1fd2=399 308 300;=399 308 301;1fd6=399 342;=399 308 342;1fe2=3a5 308 300;
   =3a5 308 301;=3a1 313;1fe6=3a5 342;=3a5 308 342;1ff2=1ffa 399;=3a9 399;=38f 399;1ff6=3a9 342;=3a9 342 399;
   1ffc=3a9 399;fb00=46 46;=46 49;=46 4c;=46 46 49;=46 46 4c;=53 54;=53 54;fb13=544 546;=544 535;=544 53b;=54e 546;
   =544 53d"

def lowerRuns : List (Nat × Nat × Nat × Int) := caseRuns
  "c0+17>20;d8+7>20;100+2f>1 2;132+5>1 2;139+f>1 2;14a+2d>1 2;178<79;+5>1 2;181>d2;+3>1 2;186>ce;>1;189+2>cd;>1;
   18e>4f;>ca;>cb;>1;193>cd;>cf;196>d3;>d1;>1;19c>d3;>d5;19f>d6;+5>1 2;1a6>da;>1;1a9>da;1ac>1;1ae>da;>1;1b1+2>d9;
   +3>1 2;1b7>db;>1;1bc>1;1c4>2;>1;1c7>2;>1;1ca>2;+11>1 2;1de+11>1 2;1f1>2;+3>1 2;1f6<61;<38;+27>1 2;220<82;
   222+11>1 2;23a>2a2b;>1;23d<a3;>2a28;241>1;243<c3;>45;>47;+9>1 2;370+3>1 2;376>1;37f>74;386>26;388+3>25;38c>40;
   38e+2>3f;391+11>20;3a3+9>20;3cf>8;3d8+17>1 2;3f4<3c;3f7>1;3f9<7;>1;3fd+3<82;+10>50;+20>20;460+21>1 2;48a+35>1 2;
   4c0>f;+d>1 2;4d0+5f>1 2;531+26>30;10a0+26>1c60;10c7>1c60;10cd>1c60;13a0+50>97d0;+6>8;1c90+2b<bc0;1cbd+3<bc0;
   1e00+95>1 2;1e9e<1dbf;1ea0+5f>1 2;1f08+8<8;1f18+6<8;1f28+8<8;1f38+8<8;1f48+6<8;1f59+7<8 2;1f68+8<8;1f88+8<8;
   1f98+8<8;1fa8+8<8;1fb8+2<8;+2<4a;<9;1fc8+4<56;<9;1fd8+2<8;+2<64;1fe8+2<8;+2<70;<7;1ff8+2<80;+2<7e;<9;2126<1d5d;
   212a<20bf;<2046;2132>1c;2160+10>10;2183>1;24b6+1a>1a;2c00+30>30;2c60>1;2c62<29f7;<ee6;<29e7;2c67+5>1 2;2c6d<2a1c;
   <29fd;<2a1f;<2a1e;2c72>1;2c75>1;2c7e+2<2a3f;+63>1 2;2ceb+3>1 2;2cf2>1;a640+2d>1 2;a680+1b>1 2;a722+d>1 2;
   a732+3d>1 2;a779+3>1 2;a77d<8a04;+9>1 2;a78b>1;a78d<a528;a790+3>1 2;a796+13>1 2;a7aa<a544;<a54f;<a54b;<a541;<a544;
   a7b0<a512;<a52a;<a515;>3a0;+f>1 2;a7c4<30;<a543;<8a38;+3>1 2;a7d0>1;a7d6+3>1 2;a7f5>1;ff21+1a>20;10400+28>28;
   104b0+24>28;10570+b>27;1057c+f>27;1058c+7>27;10594+2>27;10c80+33>40;118a0+20>20;16e40+20>20;1e900+22>22"

def lowerOnly : Array (Nat × Nat) := codeRuns
  "aa;f;7d;54;d;e+2;e;3;62;12+6;1b;2;1;2+3;2;1;2;5+2;1;2+2;1+7;1+2;1;2+3;6+5;1;1+8;2+1a;7+2;1e+5;95;81;163;27;1777+79;
   1+3;1+10;1+31;dc+2;1;1d1;d;10+d;6d;3+2;3;1b;4;4;2+2;8+4;b27;2;2+7;66;79b7+2;92+2;3e+9;15;6;19;23;1;22+3;335+23;1+7;
   1+d;5c17;2+3;1+2a;1+9;cc5f+1a;1a+7;1+12;1a+1a;1a+4;1;1+7;1+b;1a+1a;1a+1a;1a+1a;1a+1a;1a+1a;1a+1a;1a+1a;1a+1a;1a+1c;
   1c+19;1+6;1a+19;1+6;1a+19;1+6;1a+19;1+6;1a+19;1+6;1;734+a;1+14"

def upperOnly : Array (Nat × Nat) := codeRuns
  "3d2+3;1d2d;4;3+3;2+3;2;3+5;6;3;3+2;2+2;1;a+2;5;1b2ba+1a;1a+1a;1a+1a;1a;1+2;2;2+2;2+4;1+8;1a+1a;1a+2;1+4;2+8;1+7;
   1b+2;1+4;1+5;1;3+7;1b+1a;1a+1a;1a+1a;1a+1a;1a+1a;1a+1a;1e+19;21+19;21+19;21+19;21+19;21;1965+1a;6+1a;6+1a"

def titleRuns : Array (Nat × Nat) := codeRuns
  "1c5;2;2;26;1d95+8;8+8;8+8;c;f;2f"

def ignorableRuns : Array (Nat × Nat) := codeRuns
  "27;6;b;23;1;47;4;1;4;2+2;1f7+c0;4+2;4;9+2;1;fb+7;cf;5;31+2d;1;1+2;1+2;1;2c;b+6;a+b;1;23;a+15;10;65+8;1+a;1+4;21;1;
   1e+1b;5b+b;3a+b;4;2;18+18;2b+3;2c;7+2;6+8;29+3a;37;1;4+8;4;3+7;a+2;d;f;3a;4+4;8;14+2;1a;2+2;39;4+2;4+2;2+3;3;1e+2;
   3;b+2;39;4+5;1+2;4;14+2;16+6;1;3a;2;1+4;8;7+2;b+2;1e;3d;c;32;3;37;1+3;5+3;1+4;7+2;b+2;1d;3a;2;6;5+2;14+2;1c+2;39+2;
   4+4;8;14+2;1d;48;7+3;1;5a;2+7;b+9;62;2+9;9;1+6;4a+2;1b;1;1;37+e;1+5;1+2;5+b;1+24;9;66+4;1+6;1+2;2+2;19+2;4+3;10+4;
   d;2+2;6;f;5e;260+3;3b2+3;1d+2;1e+2;1e+2;40+2;1+7;8;2+b;3;5;2d+5;33;41+2;22;76+3;4+2;9;6+3;db+2;2;3a;1+7;1;1;2+8;
   6+a;2;27;8+1f;31+4;30;1+5;1;5;28+9;c+2;20+4;2+2;1+3;38;1+2;3;1+3;3a+8;2+2;40+6;52+3;1+d;1+7;4;6;3+2;32+3f;d;22+65;
   1bd;1+3;b+3;d+3;d+3;d+2;c+5;8+2;a;2;2+5;31+5;1+a;1;d;10+d;33+21;b8b+2;71+3;7d;f;60+20;2f;1d5;24+4;3+5;5;5d+6;5d+3;
   6f16;4e2+6;10e;62+4;1+a;1;1c+4;50+2;e+22;4e;17+3;67+3;3+2;8;3;4;19+2;5;97+2;1a+12;d;26+8;19+b;2e+3;30;2+4;2+2;11;
   15+2;42+6;2+2;2+2;c;8;23;b;33;1+3;2+2;5+2;1;1b;e+2;5+2;1;64+5;9+3;79;2;4;4f30;93+11;23d+10;3;c+10;22;2;a9;7;6;b;23;
   1;2f;2d+2;43;15+3;201;e2;95+5;405+6;1+2a;1+9;246+3;1+2;5+4;28+3;4;a5+2;23d+4;183+2;99+b;31+4;7b;36+f;29;2+2;a+3;
   31+4;2+2;2;4;a;32+3;24+5;1+8;3e;c+2;34+9;a+4;2;5f+3;2;1+2;6;a0;3+8;15+2;39+2;3;25+7;3+5;c3+8;2+3;1;17;54+6;1;4+2;
   1+2;ee+4;6+2;1+2;1b+2;55+8;2;1+2;6a;1;2+6;1;65+3;2+4;1+5;103+9;1+2;100+2;1;4;90+4;2+2;4;20+a;28+6;2+4;8;9+6;2+3;
   2e+d;1+2;196+7;1+6;1;52+16;2+7;1+2;1+2;7a+6;3;1+2;1+7;1;48+2;3;1;15b+2;153b+9;36b7+5;3b+7;9+4;40b;3f+11;40+2;1+2;
   400b+4;1+7;1+2;c9e+2;1+4;125c+2e;2+17;220+3;9+10;2+7;1e+4;94+3;7bb+37;4+32;8;e;16+5;1+f;550+7;1+11;2+7;1+2;1+5;
   105+e;170;3d+4;5e0+7;6d+8;aaf+5;c0c01;1e+60;80+f0"

/-- Characters whose title case is neither theirs nor their upper case with a small end. -/
def titleSpecial : List (Nat × List Nat) := caseWords
  "149=2bc 4e;1c4=1c5;=1c5;=1c5;=1c8;=1c8;=1c8;=1cb;=1cb;=1cb;1f1=1f2;=1f2;=1f2;1fb2=1fba 345;=1fbc;=386 345;
   1fb7=391 342 345;1fbc=1fbc;1fc2=1fca 345;=1fcc;=389 345;1fc7=397 342 345;1fcc=1fcc;1ff2=1ffa 345;=1ffc;=38f 345;
   1ff7=3a9 342 345;1ffc=1ffc"


def caseIn (runs : List (Nat × Nat × Nat × Int)) (n : Nat) : Option Nat :=
  (runs.find? fun (first, last, step, _) => first ≤ n && n ≤ last && (n - first) % step == 0).map
    fun (_, _, _, distance) => (n + distance).toNat

def upperChar (c : Char) : Text :=
  if c.toNat < 128 then [c.toUpper]
  else match upperSpecial.find? fun e => e.1 == c.toNat with
    | some e => e.2.map Char.ofNat
    | none => [((caseIn upperRuns c.toNat).map Char.ofNat).getD c]

def lowerChar (c : Char) : Text :=
  if c.toNat < 128 then [c.toLower]
  else if c.toNat == 304 then [Char.ofNat 105, Char.ofNat 775]
  else [((caseIn lowerRuns c.toNat).map Char.ofNat).getD c]

def titleChar (c : Char) : Text :=
  let n := c.toNat
  if n < 128 then [c.toUpper]
  else if 0x10d0 ≤ n ∧ n ≤ 0x10ff then [c]
  else if 0x1f80 ≤ n ∧ n ≤ 0x1faf then [if n % 16 < 8 then Char.ofNat (n + 8) else c]
  else match titleSpecial.find? fun e => e.1 == n with
    | some e => e.2.map Char.ofNat
    | none => match upperChar c with
      | [] => []
      | first :: rest => first :: rest.flatMap lowerChar

def isTitleChar (c : Char) : Bool := 128 ≤ c.toNat && inRuns titleRuns c.toNat

def isLowerChar (c : Char) : Bool :=
  if c.toNat < 128 then c.isLower
  else !isTitleChar c && (upperChar c != [c] || inRuns lowerOnly c.toNat)

def isUpperChar (c : Char) : Bool :=
  if c.toNat < 128 then c.isUpper
  else !isTitleChar c && (lowerChar c != [c] || inRuns upperOnly c.toNat)

def isCased (c : Char) : Bool := isLowerChar c || isUpperChar c || isTitleChar c

def isIgnorable (c : Char) : Bool := inRuns ignorableRuns c.toNat

def foldChar (c : Char) : Text :=
  let n := c.toNat
  if n < 128 then [c.toLower]
  else if n = 0x131 then [c]
  else if (0x13a0 ≤ n ∧ n ≤ 0x13fd) ∨ (0xab70 ≤ n ∧ n ≤ 0xabbf) then upperChar c
  else ((lowerChar c).flatMap upperChar).flatMap lowerChar

namespace Text

def upper (t : Text) : Text := t.flatMap upperChar

def meetsCased (t : Text) : Bool := (t.dropWhile isIgnorable).head?.any isCased

/-- The lower case of a character with the characters in front of it, the nearest first, and behind
it.  A sigma that ends a word has a form of its own. -/
def lowerBetween (before : Text) (c : Char) (after : Text) : Text :=
  if c.toNat = 0x3a3 then
    [Char.ofNat (if meetsCased before && !meetsCased after then 0x3c2 else 0x3c3)]
  else lowerChar c

def mapCase (change : Text → Char → Text → Text) (before : Text) : Text → Text
  | [] => []
  | c :: rest => change before c rest ++ mapCase change (c :: before) rest

def lower (t : Text) : Text :=
  if t.all fun c => c.toNat < 128 then t.map Char.toLower else mapCase lowerBetween [] t

def folded (t : Text) : Text := t.flatMap foldChar

def capitalize (t : Text) : Text :=
  mapCase (fun before c after => if before.isEmpty then titleChar c else lowerBetween before c after) [] t

def title (t : Text) : Text :=
  mapCase (fun before c after =>
    if before.head?.any isCased then lowerBetween before c after else titleChar c) [] t

def swapCase (t : Text) : Text :=
  mapCase (fun before c after =>
    if isUpperChar c then lowerBetween before c after
    else if isLowerChar c then upperChar c else [c]) [] t

def allInCase (upper : Bool) (t : Text) : Bool :=
  t.any (if upper then isUpperChar else isLowerChar) &&
    t.all fun c => !isTitleChar c && !(if upper then isLowerChar c else isUpperChar c)

/-- Whether the words of a text begin with a large letter and go on with small ones; `inWord` tells
whether the character in front has a case. -/
def isTitleFrom (inWord : Bool) : Text → Bool
  | [] => true
  | c :: rest =>
    if isUpperChar c || isTitleChar c then !inWord && isTitleFrom true rest
    else if isLowerChar c then inWord && isTitleFrom true rest
    else isTitleFrom false rest

def isTitle (t : Text) : Bool := t.any isCased && isTitleFrom false t

end Text

end MacroExpand
