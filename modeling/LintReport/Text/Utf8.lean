/-
  LintReport.Text.Utf8 — UTF-8 octets read as characters, and where reading stops.

  A character takes one octet below 80, or a lead octet that says how many continuation octets
  follow; after E0, ED, F0 and F4 the next one is bounded more narrowly, so that no character has
  two forms, no surrogate has one, and none lies beyond the last code point. An error names the
  octets that began a character and how they failed it.
-/

import LintReport.Text.Basic
import LintReport.Text.Numeral

namespace LintReport.Text.Utf8

inductive Fault where
  | start
  | continuation
  | truncated
  deriving DecidableEq, Repr

/-- The octets `first` to `last` begin no character; `octet` stands first. -/
structure Error where
  octet : UInt8
  first : Nat
  last : Nat
  fault : Fault
  deriving DecidableEq, Repr

def Fault.message : Fault → Text
  | .start => "invalid start byte".toList
  | .continuation => "invalid continuation byte".toList
  | .truncated => "unexpected end of data".toList

def Error.message (e : Error) : Text :=
  "'utf-8' codec can't decode ".toList ++
    (if e.first = e.last then
      "byte 0x".toList ++ Quoted.hex 2 e.octet.toNat ++ " in position ".toList
        ++ Numeral.ofNat e.first
    else
      "bytes in position ".toList ++ Numeral.ofNat e.first ++ ['-'] ++ Numeral.ofNat e.last)
    ++ ": ".toList ++ e.fault.message

/-- A character of which the octets from `first` on have been read: `missing` more are needed, the
next one between `low` and `high`. -/
structure Started where
  octet : UInt8
  first : Nat
  missing : Nat
  low : Nat
  high : Nat
  code : Nat

def Started.ofLead? (first : Nat) (b : UInt8) : Option Started :=
  let n := b.toNat
  if n < 0xC2 then none
  else if n < 0xE0 then some ⟨b, first, 1, 0x80, 0xBF, n - 0xC0⟩
  else if n < 0xF0 then
    some ⟨b, first, 2, if n = 0xE0 then 0xA0 else 0x80, if n = 0xED then 0x9F else 0xBF, n - 0xE0⟩
  else if n < 0xF5 then
    some ⟨b, first, 3, if n = 0xF0 then 0x90 else 0x80, if n = 0xF4 then 0x8F else 0xBF, n - 0xF0⟩
  else none

def decodeFrom (pos : Nat) : Option Started → List UInt8 → Except Error Text
  | none, [] => .ok []
  | some s, [] => .error ⟨s.octet, s.first, pos - 1, .truncated⟩
  | none, b :: bs =>
    if b < 0x80 then (decodeFrom (pos + 1) none bs).map (Char.ofNat b.toNat :: ·)
    else
      match Started.ofLead? pos b with
      | none => .error ⟨b, pos, pos, .start⟩
      | some s => decodeFrom (pos + 1) (some s) bs
  | some s, b :: bs =>
    if s.low ≤ b.toNat ∧ b.toNat ≤ s.high then
      let code := s.code * 64 + (b.toNat - 0x80)
      if s.missing ≤ 1 then (decodeFrom (pos + 1) none bs).map (Char.ofNat code :: ·)
      else decodeFrom (pos + 1) (some ⟨s.octet, s.first, s.missing - 1, 0x80, 0xBF, code⟩) bs
    else .error ⟨s.octet, s.first, pos - 1, .continuation⟩

def decode (bytes : List UInt8) : Except Error Text := decodeFrom 0 none bytes

def encode (s : Text) : List UInt8 := (String.ofList s).toUTF8.toList

end LintReport.Text.Utf8
