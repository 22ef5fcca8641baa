import MacroExpand.Syntax.Diagnosis.Statements

/-!
# The fault of a text

`diagnose` says why the tokens of a text fit no rule.  The text is read without and then with the
alternatives that describe mistakes.  If no mistake is found, the last token that the first reading
looked at is at fault.  A fault that further cutting of the text shows may be more urgent than
either.
-/

set_option autoImplicit false

namespace MacroExpand

namespace Diagnosis

def depthsOf (depth : Nat) : List Token → List Nat
  | [] => []
  | t :: rest =>
    let depth := if t.kind = .op then
        if ["(", "[", "\x7b"].any t.isOp then depth + 1
        else if [")", "]", "\x7d"].any t.isOp then depth - 1
        else depth
      else depth
    depth :: depthsOf depth rest

/-- What is reported instead of a mistake: a loud fault further on, or a bracket that is open where
cutting stopped and was opened in a line in front of the last token that was looked at. -/
def overriding? (lexed : LexResult) (line : Nat) : Option SourceFault :=
  match lexed.stopped with
  | none => none
  | some stopped =>
    if stopped.isLoud then some stopped.fault
    else stopped.opened.bind fun (c, opened) =>
      if opened < line then some (Lexer.unclosed c opened) else none

def Stop.fault (lexed : LexResult) (last : Token) : Stop → SourceFault
  | .cutting fault => fault
  | .mistake fault => (overriding? lexed last.line).getD fault

/-- The fault of a text in which no mistake was found: the last token that was looked at in the first
reading does not fit; `last` is the last one of both readings. -/
def unfit (lexed : LexResult) (first last : Token) : SourceFault :=
  match first.kind with
  | .indent => ⟨.indentation, "unexpected indent", last.line, last.column⟩
  | .dedent => ⟨.indentation, "unexpected unindent", last.line, last.column⟩
  | _ => (overriding? lexed last.line).getD ⟨.grammar, "invalid syntax", first.line, first.column⟩

def search (lexed : LexResult) (grounds : Grounds) (grammar : Rules → Search Tree) :
    Option SourceFault :=
  let read := grammar (rules (64 * grounds.tokens.size + 200)) grounds
  match read {} with
  | .found _ _ => none
  | .stopped s p => some (s.fault lexed (lastLooked grounds p))
  | .missed p =>
    let first := lastLooked grounds p
    match read { looked := p.looked, probing := true } with
    | .stopped s q => some (s.fault lexed (lastLooked grounds q))
    | .missed q | .found _ q => some (unfit lexed first (lastLooked grounds q))

def groundsOf (lexed : LexResult) (version : Nat)
    (fieldFault : Text → Nat → Nat → Option SourceFault) : Grounds :=
  { tokens := lexed.tokens.toArray
    depths := (depthsOf 0 lexed.tokens).toArray
    stopped := lexed.stopped.map LexFault.fault
    version, fieldFault }

def fieldFault (version : Nat) : Nat → Text → Nat → Nat → Option SourceFault
  | 0, _, _, _ => none
  | fuel + 1, text, line, column =>
    let lexed := Lexer.run { startLine := line, startColumn := column, version }
      ('(' :: (text ++ [')']))
    let found := search lexed (groundsOf lexed version (fieldFault version fuel)) fieldExpression
    let isLoud := fun fault => lexed.stopped.any fun stopped => stopped.isLoud && stopped.fault = fault
    found.map fun fault =>
      if isLoud fault then fault else { fault with message := "f-string: " ++ fault.message }

end Diagnosis

def diagnose (lexed : LexResult) (version : Nat)
    (grammar : Diagnosis.Rules → Diagnosis.Search Tree) : SourceFault :=
  let grounds := Diagnosis.groundsOf lexed version (Diagnosis.fieldFault version 8)
  (Diagnosis.search lexed grounds grammar).getD ⟨.grammar, "invalid syntax", 0, 0⟩

end MacroExpand
