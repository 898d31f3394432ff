import IntentEngineering.Library.Binary64

namespace JsonNumber
open Decimal Binary64

-- The exponent keeps its letter and sign as written.
structure Exponent where
  letter : Char
  sign : List Char
  digits : List Char
deriving DecidableEq

-- `fraction` has no point; both it and the exponent may be missing.
structure Token where
  negative : Bool
  integer : List Char
  fraction : List Char
  exponent : Option Exponent
deriving DecidableEq

def Exponent.text (e : Exponent) : List Char := e.letter :: (e.sign ++ e.digits)

def Token.tail (t : Token) : List Char :=
  (if t.fraction = [] then [] else '.' :: t.fraction) ++ (t.exponent.map Exponent.text).getD []

def Token.text (t : Token) : List Char := (if t.negative then ['-'] else []) ++ t.integer ++ t.tail

def Digits (cs : List Char) : Prop := ∀ c ∈ cs, isDigit c = true

instance : Decidable (Digits cs) := inferInstanceAs (Decidable (∀ c ∈ cs, _))

structure Exponent.Shaped (e : Exponent) : Prop where
  letter : e.letter = 'e' ∨ e.letter = 'E'
  sign : e.sign = [] ∨ e.sign = ['-'] ∨ e.sign = ['+']
  digits : Digits e.digits
  nonempty : e.digits ≠ []

structure Token.Shaped (t : Token) : Prop where
  digits : Digits t.integer
  nonempty : t.integer ≠ []
  unpadded : t.integer.head? = some '0' → t.integer = ['0']
  fraction : Digits t.fraction
  exponent : ∀ e, t.exponent = some e → e.Shaped

def scanDigits (cs : List Char) : List Char × List Char := (cs.takeWhile isDigit,cs.dropWhile isDigit)

def scanInteger : List Char → Option (List Char × List Char)
  | [] => none
  | c :: cs =>
    if c = '0' then some (['0'],cs)
    else if isDigit c then some (c :: (scanDigits cs).1,(scanDigits cs).2)
    else none

-- A point with no digit after it is not part of the number.
def scanFraction : List Char → List Char × List Char
  | [] => ([],[])
  | c :: cs =>
    if c = '.' ∧ (scanDigits cs).1 ≠ [] then scanDigits cs
    else ([],c :: cs)

def scanSign : List Char → List Char × List Char
  | [] => ([],[])
  | c :: cs => if c = '-' ∨ c = '+' then ([c],cs) else ([],c :: cs)

def scanExponent : List Char → Option Exponent × List Char
  | [] => (none,[])
  | c :: cs =>
    let sign := scanSign cs
    if (c = 'e' ∨ c = 'E') ∧ (scanDigits sign.2).1 ≠ [] then
      (some ⟨c,sign.1,(scanDigits sign.2).1⟩,(scanDigits sign.2).2)
    else (none,c :: cs)

def scanNegative : List Char → Bool × List Char
  | [] => (false,[])
  | c :: cs => if c = '-' then (true,cs) else (false,c :: cs)

def scan (cs : List Char) : Option (Token × List Char) :=
  let sign := scanNegative cs
  (scanInteger sign.2).map fun integer =>
    let fraction := scanFraction integer.2
    let exponent := scanExponent fraction.2
    (⟨sign.1,integer.1,fraction.1,exponent.1⟩,exponent.2)

-- Text that cannot continue a number.
def Stops (cs : List Char) : Prop :=
  ∀ c, cs.head? = some c → isDigit c = false ∧ c ≠ '.' ∧ c ≠ 'e' ∧ c ≠ 'E'

theorem stops_nil : Stops [] := by simp [Stops]

theorem scanDigits_stop (digits : Digits ds) (stop : ∀ c, rest.head? = some c → isDigit c = false) :
    scanDigits (ds ++ rest) = (ds,rest) := by
  unfold scanDigits
  rw [List.takeWhile_append_of_pos digits,List.dropWhile_append_of_pos digits]
  cases rest with
  | nil => simp
  | cons c rest => simp [stop c rfl]

theorem scanDigits_split (cs : List Char) :
    cs = (scanDigits cs).1 ++ (scanDigits cs).2 ∧ Digits (scanDigits cs).1 :=
  ⟨List.takeWhile_append_dropWhile.symm,List.all_eq_true.mp List.all_takeWhile⟩

theorem scanInteger_text (digits : Digits integer) (nonempty : integer ≠ [])
    (unpadded : integer.head? = some '0' → integer = ['0'])
    (stop : ∀ c, rest.head? = some c → isDigit c = false) :
    scanInteger (integer ++ rest) = some (integer,rest) := by
  cases integer with
  | nil => exact (nonempty rfl).elim
  | cons c cs =>
    by_cases zero : c = '0'
    · subst zero
      have same := unpadded rfl
      simp only [List.cons.injEq,true_and] at same
      subst same
      simp [scanInteger]
    · have later : scanDigits (cs ++ rest) = (cs,rest) := scanDigits_stop (fun d member => digits d (by simp [member])) stop
      simp [scanInteger,zero,digits c (by simp),later]

theorem scanExponent_text (shaped : ∀ e, exponent = some e → Exponent.Shaped e) (stop : Stops rest) :
    scanExponent ((exponent.map Exponent.text).getD [] ++ rest) = (exponent,rest) := by
  cases exponent with
  | none =>
    cases rest with
    | nil => rfl
    | cons c rest => simp [scanExponent,(stop c rfl).2.2.1,(stop c rfl).2.2.2]
  | some e =>
    obtain ⟨letter,sign,digits,nonempty⟩ := shaped e rfl
    have later := scanDigits_stop digits fun c h => (stop c h).1
    have signed : scanSign (e.sign ++ (e.digits ++ rest)) = (e.sign,e.digits ++ rest) := by
      rcases sign with none | minus | plus
      · cases shape : e.digits with
        | nil => exact (nonempty shape).elim
        | cons d ds =>
          have digit := digits d (by simp [shape])
          have notMinus : d ≠ '-' := by rintro rfl; simp [isDigit] at digit
          have notPlus : d ≠ '+' := by rintro rfl; simp [isDigit] at digit
          simp [none,scanSign,notMinus,notPlus]
      · simp [minus,scanSign]
      · simp [plus,scanSign]
    simp only [Option.map_some,Option.getD_some,Exponent.text,List.cons_append,List.append_assoc]
    simp only [scanExponent,signed,later]
    simp [letter,nonempty]

theorem exponent_stops (shaped : ∀ e, exponent = some e → Exponent.Shaped e) (stop : Stops rest) :
    ∀ c, ((exponent.map Exponent.text).getD [] ++ rest).head? = some c → isDigit c = false ∧ c ≠ '.' := by
  intro c head
  cases exponent with
  | none => exact ⟨(stop c head).1,(stop c head).2.1⟩
  | some e =>
    simp only [Option.map_some,Option.getD_some,Exponent.text,List.cons_append,List.head?_cons,
      Option.some.injEq] at head
    rcases (shaped e rfl).letter with lower | upper
    · rw [lower] at head; subst head; decide
    · rw [upper] at head; subst head; decide

theorem scanFraction_text (digits : Digits fraction) (stop : ∀ c, rest.head? = some c → isDigit c = false ∧ c ≠ '.') :
    scanFraction ((if fraction = [] then [] else '.' :: fraction) ++ rest) = (fraction,rest) := by
  by_cases empty : fraction = []
  · subst empty
    cases rest with
    | nil => rfl
    | cons c rest => simp [scanFraction,(stop c rfl).2]
  · have later := scanDigits_stop digits fun c h => (stop c h).1
    simp only [empty,if_false,List.cons_append,scanFraction,later,ne_eq,not_false_eq_true,and_self,if_true]

theorem tail_stops (shaped : Token.Shaped t) (stop : Stops rest) :
    ∀ c, (t.tail ++ rest).head? = some c → isDigit c = false := by
  intro c head
  by_cases empty : t.fraction = []
  · simp only [Token.tail,empty,if_true,List.nil_append] at head
    exact (exponent_stops shaped.exponent stop c head).1
  · simp only [Token.tail,empty,if_false,List.cons_append,List.head?_cons,Option.some.injEq] at head
    subst head
    decide

theorem scanNegative_text (rest : List Char) (negative : Bool) (digits : Digits integer) (nonempty : integer ≠ []) :
    scanNegative ((if negative then ['-'] else []) ++ (integer ++ rest)) = (negative,integer ++ rest) := by
  cases negative with
  | true => simp [scanNegative]
  | false =>
    cases integer with
    | nil => exact (nonempty rfl).elim
    | cons c cs =>
      have digit := digits c (by simp)
      have notMinus : c ≠ '-' := by rintro rfl; simp [isDigit] at digit
      simp [scanNegative,notMinus]

theorem scan_text (shaped : Token.Shaped t) (stop : Stops rest) : scan (t.text ++ rest) = some (t,rest) := by
  have exponent := scanExponent_text shaped.exponent stop
  have fraction := scanFraction_text shaped.fraction (exponent_stops shaped.exponent stop)
  have integer := scanInteger_text shaped.digits shaped.nonempty shaped.unpadded (tail_stops shaped stop)
  have negative := scanNegative_text (t.tail ++ rest) t.negative shaped.digits shaped.nonempty
  simp only [Token.text,List.append_assoc,scan,negative,integer,Option.map_some]
  simp only [Token.tail,List.append_assoc,fraction,exponent]

theorem scanExponent_sound (cs : List Char) :
    cs = ((scanExponent cs).1.map Exponent.text).getD [] ++ (scanExponent cs).2 ∧
      ∀ e, (scanExponent cs).1 = some e → e.Shaped := by
  cases cs with
  | nil => simp [scanExponent]
  | cons c cs =>
    simp only [scanExponent]
    split
    · rename_i found
      have split := scanDigits_split (scanSign cs).2
      have signed : cs = (scanSign cs).1 ++ (scanSign cs).2 ∧
          ((scanSign cs).1 = [] ∨ (scanSign cs).1 = ['-'] ∨ (scanSign cs).1 = ['+']) := by
        cases cs with
        | nil => simp [scanSign]
        | cons d cs =>
          simp only [scanSign]
          split
          · rename_i sign
            rcases sign with rfl | rfl <;> simp
          · simp
      refine ⟨?_,fun e same => ?_⟩
      · simp only [Option.map_some,Option.getD_some,Exponent.text,List.cons_append,List.append_assoc]
        rw [←split.1,←signed.1]
      · cases Option.some.inj same
        exact ⟨found.1,signed.2,split.2,found.2⟩
    · simp

theorem scanFraction_sound (cs : List Char) :
    cs = (if (scanFraction cs).1 = [] then [] else '.' :: (scanFraction cs).1) ++ (scanFraction cs).2 ∧
      Digits (scanFraction cs).1 := by
  cases cs with
  | nil => simp [scanFraction,Digits]
  | cons c cs =>
    simp only [scanFraction]
    split
    · rename_i found
      have split := scanDigits_split cs
      refine ⟨?_,split.2⟩
      rw [if_neg found.2,found.1,List.cons_append,←split.1]
    · simp [Digits]

theorem scanInteger_sound (got : scanInteger cs = some (integer,rest)) :
    cs = integer ++ rest ∧ Digits integer ∧ integer ≠ [] ∧ (integer.head? = some '0' → integer = ['0']) := by
  cases cs with
  | nil => cases got
  | cons c cs =>
    simp only [scanInteger] at got
    split at got
    · rename_i zero
      cases got
      subst zero
      simp [Digits,isDigit]
    · rename_i nonzero
      split at got
      · rename_i digit
        cases got
        have split := scanDigits_split cs
        refine ⟨by rw [List.cons_append,←split.1],?_,by simp,by simp [nonzero]⟩
        intro d member
        rcases List.mem_cons.mp member with rfl | later
        · exact digit
        · exact split.2 d later
      · cases got

theorem scan_sound (got : scan cs = some (t,rest)) : cs = t.text ++ rest ∧ t.Shaped := by
  unfold scan at got
  dsimp only at got
  cases integer : scanInteger (scanNegative cs).2 with
  | none => simp [integer] at got
  | some found =>
    simp only [integer,Option.map_some,Option.some.injEq,Prod.mk.injEq] at got
    obtain ⟨rfl,rfl⟩ := got
    obtain ⟨split,digits,nonempty,unpadded⟩ := scanInteger_sound (show scanInteger (scanNegative cs).2 = some (found.1,found.2) from integer)
    have fraction := scanFraction_sound found.2
    have exponent := scanExponent_sound (scanFraction found.2).2
    have negative : cs = (if (scanNegative cs).1 then ['-'] else []) ++ (scanNegative cs).2 := by
      cases cs with
      | nil => rfl
      | cons c cs =>
        simp only [scanNegative]
        split
        · rename_i minus
          simp [minus]
        · rfl
    refine ⟨?_,digits,nonempty,unpadded,fraction.2,exponent.2⟩
    simp only [Token.text,Token.tail,List.append_assoc]
    rw [←exponent.1,←fraction.1,←split,←negative]

end JsonNumber
