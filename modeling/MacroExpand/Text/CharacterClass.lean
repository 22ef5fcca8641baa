import MacroExpand.Text.Lines
import MacroExpand.Text.CodeTable

/-!
# Letters and digits

Which characters are letters, and which stand for numbers (Unicode 14): decimal digits, other digits,
and other numbers such as fractions.
-/

set_option autoImplicit false

namespace MacroExpand

namespace CharacterClass

def letterRuns : Array (Nat × Nat) := codeRuns
  "aa;a;4;5+17;1+1f;1+1ca;4+c;e+5;7;1;81+5;1+2;2+4;1;6;1+3;1;1+14;1+53;1+8b;8+a6;1+26;2;6+29;47+1b;4+4;2d+2b;23+2;
   1+63;1;f+2;7+2;a+3;2;10;1+1e;1d+59;b;18+21;9+2;4;5+16;4;9;3;17+19;7+b;5+18;1+6;11+2a;3a+36;3;12;7+a;f+10;4+8;2+2;
   2+16;1+7;1;3+4;3;10;d+2;1+3;e+2;a;8+6;4+2;2+16;1+7;1+2;1+2;1+2;1f+4;1;13+3;10+9;1+3;1+16;1+7;1+2;1+5;3;12;f+2;17;
   b+8;2+2;2+16;1+7;1+2;1+5;3;1e+2;1+3;f;11;1+6;3+3;1+4;3+2;1;1+2;3+2;3+3;3+c;16;34+8;1+3;1+17;1+10;3;1a+3;2;2+2;1e;
   4+8;1+3;1+17;1+a;1+5;3;1f+2;1+2;f+2;11+9;1+3;1+29;2;10;5+3;8+3;18+6;5+12;3+18;1+9;1;2+7;3a+30;1+2;c+7;3a+2;1;1+5;
   1+18;1;1+a;1+2;9;2+5;1;15+4;20;3f+8;1+24;1b+5;73+2b;14;10+6;4+4;3;3+2;7+3;4+d;c;11+26;1;5;2+2b;1+14d;1+4;2+7;1;1+4;
   2+29;1+4;2+21;1+4;2+7;1;1+4;2+f;1+39;1+4;2+43;25+10;10+56;2+6;3+26c;2+11;1+1a;5+4b;6+8;7+12;d+13;e+12;e+d;1+3;f+34;
   23;4;43+59;7+5;2+22;1;5+46;a+1f;31+1e;2+5;b+2c;4+1a;36+17;9+35;52;5d+2f;11+8;36+1e;d+2;a+2c;1a+24;29+3;a+24;2+9;
   7+2b;2+3;29+4;1+6;1+2;3;5+c0;40+116;2+6;2+26;2+6;2+8;1;1;1;1+1f;2+35;1+7;1;3+3;1+7;3+4;2+6;4+d;5+3;1+7;74;d;10+d;
   65;4;2+a;1;3+5;6;1;1;1+4;1+b;2+4;5+5;4;34+2;a7b+e5;6+4;3+2;c+26;1;5;2+38;7;10+17;9+7;1+7;1+7;1+7;1+7;1+7;1+7;1+7;
   50;1d5+2;2a+5;5+2;4+56;6+3;1+5a;1+4;5+2b;1+5e;11+20;30+10;200+19c0;40+568d;43+2e;2+10d;3+10;a+2;14+2f;10+1f;2+46;
   31+9;2+67;2+40;5+2;1;1+5;18+10;1+3;1+4;1+17;1d+34;e+32;3e+6;3;1+2;b+1c;a+17;19+1d;7+2f;1c;10+5;1+a;a+5;1+29;17+3;
   1+8;14+17;3;3+32;1;3+2;2+5;2;1;18+3;2+b;7+3;c+6;2+6;2+6;9+7;1+7;1+2b;1+e;6+73;1d+2ba4;c+17;4+31;2104+16e;2+6a;26+7;
   c+5;5;1+a;1+d;1+5;1;1+2;1+2;1+6c;21+16b;12+40;2+36;28+c;74+5;1+87;24+1a;6+1a;b+59;3+6;2+6;2+6;2+3;23+c;1+1a;1+13;
   1+2;1+f;2+e;22+7b;185+1d;3+31;2f+20;d+14;1+8;6+26;a+1e;2+24;4+8;30+9e;12+24;4+24;4+28;8+34;c+b;1+f;1+7;1+2;1+b;1+f;
   1+7;1+2;43+137;9+16;a+8;18+6;1+2a;1+9;45+6;2;1+2c;1+2;3;2+17;a+17;9+1f;41+13;1+2;a+16;a+1a;46+38;6+2;40;f+4;1+3;
   1+1d;2a+1d;3+1d;23+8;1+1c;1b+36;a+16;a+13;d+12;6e+49;37+33;d+33;d+24;15c+2a;6+2;4e+1d;a;8+16;2a+12;2e+15;1b+17;
   c+35;39+2;2;d+2d;20+19;1a+24;1d;2;8+23;3;c+30;e+4;15;1;23+12;1+19;54+7;1;1+4;1+f;1+a;7+2f;26+8;2+2;2+16;1+7;1+2;
   1+5;3;12;c+5;9e+35;12+4;14+3;1e+30;14+2;1;b8+2f;29+4;24+30;14;3b+2b;d;47+1b;25+7;b9+2c;74+40;1f+8;2;2+8;1+2;1+18;f;
   1;5e+8;2+27;10;1;1c;a+28;7;15;b+2e;13;12+49;107+9;1+25;11;31+1e;70+7;1+2;1+26;15;19+6;1+2;1+20;e;147+13;bd;4f+39a;
   e6+c4;a4c+61;f+42f;fd1+247;21b9+239;7+1f;11+4f;11+1e;12+30;10+4;1f+15;5+13;2b0+40;80+4b;5;42+d;40+2;1;1c+17f8;
   8+4d6;2a+9;22e7+4;1+7;1+2;1+123;2d+3;11+4;8+18c;904+6b;5+d;3+9;7+a;1766+55;1+47;1+2;2;2+2;2+4;1+c;1;1+7;1+41;1+4;
   2+8;1+7;1+1c;1+4;1+5;1;3+7;1+154;2+19;1+19;1+1f;1+19;1+1f;1+19;1+1f;1+19;1+1f;1+19;1+8;734+1f;1e1+2d;a+7;10;141+1e;
   12+2c;4f4+7;1+4;1+2;1+f;1+c5;3b+44;7;4b4+4;1+1b;1+2;1;2;1+a;1+4;1;1;6;4;1;1;1+3;1+2;1;2;1;1;1;1;1+2;1;2+4;1+7;1+4;
   1+4;1;1+a;1+11;5+3;1+5;1+11;1144+a6e0;20+1039;7+de;2+1682;e+1d31;c1f+21e;5e2+134b"

def zeros : Array (Nat × Nat) := (codeRuns
  "660;8f;cf;1a5;7f;7f;7f;7f;7f;7f;7f;7f;7f;69;7f;4f;11f;4f;74f;2f;135;89;af;f;bf;5f;8f;f;89cf;2af;2f;cf;1f;5f;19f;
   531f;58f;88f;335;89;45;99;11f;15f;7f;17f;6f;6f;1af;6f;2ff;ff;4f;4cbf;5f;8f;6c7d;9;9;9;9;949;1af;65f;129f").map fun (z, _) => (z, z + 9)

def digitRuns : Array (Nat × Nat) := codeRuns
  "b2+2;5;12af+9;668;695;3+6;6+a;3d6+9;b+9;b+9;59;a+9;1;276+9;1+9;1+9;e2ad+4;41c+9;1e9+9;e0a5+b"

def numberRuns : Array (Nat × Nat) := codeRuns
  "bc+3;935+6;178+6;78+3;85+7;d9+7;11+9;1b1+a;43e+b;371+3;ff+a;956+33;2+5;2df+b;9+b;9+b;4f+a;9;280;9;9;569;309;19+9;
   e+3;157+4;8a+a;1e+8;1+f;20+a;27+f;145;7d;3a6;322;12b2;2;3;1;53;2e;7;1;28+2;1e;8;24;62;193;41;22;1;1;1d3;1+3;6;74+4;
   316;215;7;580;83+2;c+3;1;3ed;4d;485;733;48f;2e7;a07;3a5;881;4;7c;8f0;24;5;2b;7d;fef+a;140+6;5135;7;4;39;1e;1;29;
   709+2d;c+39;11+2;155+1b;24+4;1d;8;86+5;482+8;19+7;27+9;4b+5;16+6;a0+2;2+10;2+2e;44+5;34+2;1e+3;4b+5;68+8;18+8;29+7;
   14a+6;169+16;9e+a;2a+4;70+7;8f+b;17b+14;545+2;1ae+9;367+13;353+15;42b+6f;46ec+7;31e+17;6449+14;6c+19;154e+9;3a1+3b;
   1+3;1+4;4c+2d;1+f;3cd+2;ef4;62;7d;3e;808;58;8;f;14d;12;1b;1876;607;1182;2751;9622"


end CharacterClass

def isLetter (c : Char) : Bool :=
  c.isAlpha || (128 ≤ c.toNat && inRuns CharacterClass.letterRuns c.toNat)

def decimalValue? (c : Char) : Option Nat :=
  if c.isDigit then some (c.toNat - 48)
  else if c.toNat < 128 then none
  else match CharacterClass.zeros[runIndex CharacterClass.zeros c.toNat 32 0 CharacterClass.zeros.size]? with
    | some (first, last) => if first ≤ c.toNat ∧ c.toNat ≤ last then some (c.toNat - first) else none
    | none => none

def isDecimal (c : Char) : Bool := (decimalValue? c).isSome

def isDigitLike (c : Char) : Bool :=
  isDecimal c || (128 ≤ c.toNat && inRuns CharacterClass.digitRuns c.toNat)

def isNumeric (c : Char) : Bool :=
  isDigitLike c || (128 ≤ c.toNat && inRuns CharacterClass.numberRuns c.toNat)

def isAlnum (c : Char) : Bool := isLetter c || isNumeric c

def Text.plainDigits (text : Text) : Text := text.map fun c =>
  if c.toNat < 128 then c
  else if isBlank c then ' '
  else match decimalValue? c with
    | some d => Char.ofNat (48 + d)
    | none => c

end MacroExpand
