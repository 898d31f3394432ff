import IntentEngineering.Library.LineText
import Mathlib.Data.String.Basic

namespace PyText

-- `str.splitlines`: the line boundaries other than carriage return and line feed.
def lineRule : LineText.Rule Char where
  cr := '\r'
  lf := '\n'
  other c := decide (c.toNat ∈ [0x0b,0x0c,0x1c,0x1d,0x1e,0x85,0x2028,0x2029])
  distinct := by decide

-- `str.isspace`; every line boundary is such a character, and more are.
def isSpace (c : Char) : Bool :=
  decide (9 ≤ c.toNat ∧ c.toNat ≤ 13) || decide (0x1c ≤ c.toNat ∧ c.toNat ≤ 0x20) ||
    decide (0x2000 ≤ c.toNat ∧ c.toNat ≤ 0x200a) ||
    decide (c.toNat ∈ [0x85,0xa0,0x1680,0x2028,0x2029,0x202f,0x205f,0x3000])

def strip (cs : List Char) : List Char := ((cs.dropWhile isSpace).reverse.dropWhile isSpace).reverse

-- `not text.strip()`
def isBlank (cs : List Char) : Bool := cs.all isSpace

def hasText (s : String) : Bool := !isBlank s.toList

-- The characters that `\s` stands for in the validation library's patterns.
def isPatternSpace (c : Char) : Bool := isSpace c && !decide (0x1c ≤ c.toNat ∧ c.toNat ≤ 0x1f)

def isHex (c : Char) : Bool :=
  decide (48 ≤ c.toNat ∧ c.toNat ≤ 57) || decide (97 ≤ c.toNat ∧ c.toNat ≤ 102)

def isHexDigest (cs : List Char) : Bool := cs.length == 64 && cs.all isHex

theorem isBlank_append (xs ys : List Char) : isBlank (xs ++ ys) = (isBlank xs && isBlank ys) := by
  simp [isBlank]

theorem isBlank_cons (c : Char) (cs : List Char) : isBlank (c :: cs) = (isSpace c && isBlank cs) := rfl

theorem isBreak_iff (c : Char) : lineRule.isBreak c = true ↔
    c.toNat ∈ [0x0a,0x0b,0x0c,0x0d,0x1c,0x1d,0x1e,0x85,0x2028,0x2029] := by
  have cr : c = '\r' ↔ c.toNat = 0x0d := ⟨fun same => by rw [same]; rfl,fun same => Char.toNat_inj.mp same⟩
  have lf : c = '\n' ↔ c.toNat = 0x0a := ⟨fun same => by rw [same]; rfl,fun same => Char.toNat_inj.mp same⟩
  simp only [LineText.Rule.isBreak,lineRule,Bool.or_eq_true,decide_eq_true_eq,cr,lf,List.mem_cons,List.not_mem_nil,or_false]
  omega

theorem break_space (h : lineRule.isBreak c = true) : isSpace c = true := by
  have code := (isBreak_iff c).mp h
  simp only [List.mem_cons,List.not_mem_nil,or_false] at code
  simp only [isSpace,Bool.or_eq_true,decide_eq_true_eq,List.mem_cons,List.not_mem_nil,or_false]
  omega

theorem break_odd (c : Char) (h : lineRule.isBreak c = true) : c.toNat < 32 ∨ 127 ≤ c.toNat := by
  have code := (isBreak_iff c).mp h
  simp only [List.mem_cons,List.not_mem_nil,or_false] at code
  omega

end PyText
