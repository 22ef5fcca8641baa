import MacroExpand.Syntax.Diagnosis.Expressions

/-!
# Mistakes in patterns

The rules for the patterns of the cases of a `match` statement.
-/

set_option autoImplicit false

namespace MacroExpand

namespace Diagnosis

def isImaginary (t : Token) : Bool := t.text.getLast?.any fun c => c == 'j' || c == 'J'

def signedNumber : Search Tree := alts [
  number,
  do
    let t ← op "-"
    let _ ← number
    return leaf (spot t) (.unaryOp .minus)]

def realNumber : Search Tree := do
  let t ← numberToken
  if isImaginary t then mistakeAt (spot t) "real number required in complex literal"
  return leaf (spot t) (.constant (.int 0) false)

def imaginaryNumber : Search Tree := do
  let t ← numberToken
  if !isImaginary t then mistakeAt (spot t) "imaginary number required in complex literal"
  return leaf (spot t) (.constant (.int 0) false)

def complexNumber : Search Tree := do
  let a ← alts [realNumber, do
    let t ← op "-"
    let _ ← realNumber
    return leaf (spot t) (.unaryOp .minus)]
  let _ ← anyOp ["+", "-"]
  let _ ← imaginaryNumber
  return a

def literalPattern (r : Rules) : Search Tree := alts [
  do
    let a ← signedNumber
    notAhead (anyOp ["+", "-"])
    return a,
  complexNumber,
  r .strings,
  constantWord]

def noTrailer : Search Unit := notAhead (anyOp [".", "(", "="])

def captureTarget : Search Tree := do
  notAhead (word "_")
  let a ← name
  noTrailer
  return a

def wildcard : Search Tree := do
  let t ← word "_"
  return leaf (spot t) (.matchAs none)

def dotted (least : Nat) : Search Tree := do
  let a ← name
  let rest ← many (do
    let _ ← op "."
    name)
  if rest.length < least then miss
  return a

def valuePattern : Search Tree := do
  let a ← dotted 1
  noTrailer
  return a

def groupPattern (r : Rules) : Search Tree := do
  let _ ← op "("
  let a ← r .pattern
  let _ ← op ")"
  return a

def maybeStarPattern (r : Rules) : Search Tree := alts [r .starPattern, r .pattern]

def starPattern : Search Tree := alts [
  do
    let _ ← op "*"
    captureTarget,
  do
    let _ ← op "*"
    wildcard]

def patternList (r : Rules) : Search Tree := do
  let found ← gather (op ",") (maybeStarPattern r)
  let _ ← opt (op ",")
  return found.headD nothing

def openSequence (r : Rules) : Search Tree := do
  let a ← maybeStarPattern r
  let _ ← op ","
  let _ ← opt (patternList r)
  return a

def sequencePattern (r : Rules) : Search Tree := alts [
  do
    let t ← op "["
    let _ ← opt (patternList r)
    let _ ← op "]"
    return leaf (spot t) .matchSequence,
  do
    let t ← op "("
    let _ ← opt (openSequence r)
    let _ ← op ")"
    return leaf (spot t) .matchSequence]

def doubleStarPattern : Search Tree := do
  let _ ← op "**"
  captureTarget

def patternEntries (r : Rules) : Search (List Tree) :=
  gather (op ",") (do
    let a ← alts [literalPattern r, dotted 1]
    let _ ← op ":"
    let _ ← r .pattern
    return a)

def mappingPattern (r : Rules) : Search Tree :=
  let ending := do
    let _ ← opt (op ",")
    op "\x7d"
  let found := fun (t : Token) => leaf (spot t) (.matchMapping none)
  alts [
    do
      let t ← op "\x7b"
      let _ ← op "\x7d"
      return found t,
    do
      let t ← op "\x7b"
      let _ ← doubleStarPattern
      let _ ← ending
      return found t,
    do
      let t ← op "\x7b"
      let _ ← patternEntries r
      let _ ← op ","
      let _ ← doubleStarPattern
      let _ ← ending
      return found t,
    do
      let t ← op "\x7b"
      let _ ← patternEntries r
      let _ ← ending
      return found t]

def positionalPatterns (r : Rules) : Search (List Tree) := gather (op ",") (r .pattern)

def keywordPatterns (r : Rules) : Search (List Tree) :=
  gather (op ",") (do
    let a ← name
    let _ ← op "="
    let _ ← r .pattern
    return a)

def mistakenClass (r : Rules) : Search Tree := do
  let _ ← dotted 0
  let _ ← op "("
  let _ ← opt (do
    let _ ← positionalPatterns r
    op ",")
  let _ ← keywordPatterns r
  let _ ← op ","
  let late ← positionalPatterns r
  mistakeAt (late.headD nothing).mark "positional patterns follow keyword patterns"

def classPattern (r : Rules) : Search Tree :=
  let ending := do
    let _ ← opt (op ",")
    op ")"
  let opening := do
    let a ← dotted 0
    let _ ← op "("
    return leaf a.mark (.matchClass [])
  alts [
    do
      let a ← opening
      let _ ← op ")"
      return a,
    do
      let a ← opening
      let _ ← positionalPatterns r
      let _ ← ending
      return a,
    do
      let a ← opening
      let _ ← keywordPatterns r
      let _ ← ending
      return a,
    do
      let a ← opening
      let _ ← positionalPatterns r
      let _ ← op ","
      let _ ← keywordPatterns r
      let _ ← ending
      return a,
    probe (mistakenClass r)]

def closedPattern (r : Rules) : Search Tree := alts [
  literalPattern r,
  captureTarget,
  wildcard,
  valuePattern,
  groupPattern r,
  sequencePattern r,
  mappingPattern r,
  classPattern r]

def orPattern (r : Rules) : Search Tree := do
  let found ← gather (op "|") (r .closedPattern)
  return found.headD nothing

def pattern (r : Rules) : Search Tree := alts [
  do
    let a ← orPattern r
    let _ ← word "as"
    let _ ← captureTarget
    return a,
  probe (alts [
    do
      let _ ← orPattern r
      let _ ← word "as"
      let t ← word "_"
      mistakeAt (spot t) "cannot use '_' as a target",
    do
      let _ ← orPattern r
      let _ ← word "as"
      notAhead nameToken
      let a ← r .expression
      mistakeAt a.mark "invalid pattern target"]),
  orPattern r]

def patterns (r : Rules) : Search Tree := alts [openSequence r, r .pattern]

end Diagnosis

end MacroExpand
