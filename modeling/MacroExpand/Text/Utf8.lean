import MacroExpand.Text.Quoted

/-!
# Bytes of a text

Texts are written to files and into addresses as UTF-8.  Decoding refuses overlong forms, surrogates
and broken sequences, and says which bytes are at fault.
-/

set_option autoImplicit false

namespace MacroExpand

inductive Utf8Fault where
  | start
  | continuation
  | ending
  deriving DecidableEq, Repr, Inhabited

/-- A fault in bytes: what it is, where it begins, and how many bytes it takes. -/
structure Utf8Error where
  fault : Utf8Fault
  position : Nat
  length : Nat
  byte : UInt8
  deriving DecidableEq, Repr, Inhabited

namespace Utf8Error

def reason : Utf8Fault → String
  | .start => "invalid start byte"
  | .continuation => "invalid continuation byte"
  | .ending => "unexpected end of data"

def message (e : Utf8Error) : String :=
  let place :=
    if e.length ≤ 1 then
      "byte 0x" ++ String.ofList (hexDigits e.byte.toNat 2) ++ " in position " ++ toString e.position
    else
      "bytes in position " ++ toString e.position ++ "-" ++ toString (e.position + e.length - 1)
  "'utf-8' codec can't decode " ++ place ++ ": " ++ reason e.fault

end Utf8Error

/-- One decoded character with the number of bytes it takes, or a fault with its length. -/
inductive Utf8Step where
  | char (c : Char) (length : Nat)
  | fault (fault : Utf8Fault) (length : Nat)
  deriving DecidableEq, Repr, Inhabited

def isContinuation (b : UInt8) : Bool := b &&& 0xC0 == 0x80

def continuationBits (b : UInt8) : Nat := b.toNat % 64

def utf8Step (first : UInt8) (rest : List UInt8) : Utf8Step :=
  let n := first.toNat
  if n < 0x80 then .char (Char.ofNat n) 1
  else if n < 0xC2 then .fault .start 1
  else if n < 0xE0 then
    match rest with
    | [] => .fault .ending 1
    | b :: _ =>
      if isContinuation b then .char (Char.ofNat ((n - 0xC0) * 64 + continuationBits b)) 2
      else .fault .continuation 1
  else if n < 0xF0 then
    match rest with
    | [] => .fault .ending 1
    | b :: more =>
      if !isContinuation b || (if b < 0xA0 then n == 0xE0 else n == 0xED) then
        .fault .continuation 1
      else match more with
        | [] => .fault .ending 2
        | c :: _ =>
          if isContinuation c then
            .char (Char.ofNat
              ((n - 0xE0) * 4096 + continuationBits b * 64 + continuationBits c)) 3
          else .fault .continuation 2
  else if n < 0xF5 then
    match rest with
    | [] => .fault .ending 1
    | b :: more =>
      if !isContinuation b || (if b < 0x90 then n == 0xF0 else n == 0xF4) then
        .fault .continuation 1
      else match more with
        | [] => .fault .ending 2
        | c :: last =>
          if !isContinuation c then .fault .continuation 2
          else match last with
            | [] => .fault .ending 3
            | d :: _ =>
              if isContinuation d then
                .char (Char.ofNat ((n - 0xF0) * 262144 + continuationBits b * 4096
                  + continuationBits c * 64 + continuationBits d)) 4
              else .fault .continuation 3
  else .fault .start 1

def utf8DecodeFrom (position skip : Nat) (done : Text) : List UInt8 → Except Utf8Error Text
  | [] => .ok done.reverse
  | b :: rest =>
    match skip with
    | k + 1 => utf8DecodeFrom (position + 1) k done rest
    | 0 =>
      match utf8Step b rest with
      | .char c length => utf8DecodeFrom (position + 1) (length - 1) (c :: done) rest
      | .fault fault length => .error ⟨fault, position, length, b⟩

def utf8Decode (bytes : List UInt8) : Except Utf8Error Text := utf8DecodeFrom 0 0 [] bytes

/-- Decode bytes, writing the replacement character for every fault. -/
def utf8DecodeLoosely (skip : Nat) (done : Text) : List UInt8 → Text
  | [] => done.reverse
  | b :: rest =>
    match skip with
    | k + 1 => utf8DecodeLoosely k done rest
    | 0 =>
      match utf8Step b rest with
      | .char c length => utf8DecodeLoosely (length - 1) (c :: done) rest
      | .fault _ length => utf8DecodeLoosely (length - 1) ('\uFFFD' :: done) rest

/-- The bytes of a text. -/
def Text.utf8 (text : Text) : List UInt8 := text.flatMap String.utf8EncodeChar

end MacroExpand
