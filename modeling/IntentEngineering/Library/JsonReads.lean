import IntentEngineering.Library.JsonParse

namespace Json
open Decimal Binary64 JsonNumber FloatText

-- What reading one piece of text gives, whatever follows it and however much
-- fuel is left. A number has to be followed by something that ends it.
def ReadsChars (body : List Char) (raw : List Char) : Prop :=
  ∀ fuel rest, raw.length ≤ fuel → scanString fuel (raw ++ rest) = some (body,rest)

def Reads (d : Dialect) (v : Json) (raw : List Char) : Prop :=
  ∀ fuel rest, raw.length ≤ fuel → (isNumber v = true → Stops rest) → value d fuel (raw ++ rest) = some (v,rest)

def ReadsItems (d : Dialect) (vs : List Json) (raw : List Char) : Prop :=
  ∀ fuel rest, raw.length ≤ fuel → items d fuel (raw ++ rest) = some (vs,rest)

def ReadsMembers (d : Dialect) (ms : Members) (raw : List Char) : Prop :=
  ∀ fuel rest, raw.length ≤ fuel → members d fuel (raw ++ rest) = some (ms,rest)

def Blank (cs : List Char) : Prop := ∀ c ∈ cs, isWs c = true

instance : Decidable (Blank cs) := inferInstanceAs (Decidable (∀ c ∈ cs, _))

-- The text of a value starts with a character that is neither white space nor
-- the end of an array.
def Starts (raw : List Char) : Prop := ∃ c cs, raw = c :: cs ∧ isWs c = false ∧ c ≠ ']'

@[simp] theorem eat_same (c : Char) (cs : List Char) : eat c (c :: cs) = some cs := by simp [eat]

theorem eat_other (different : c ≠ e) : eat e (c :: cs) = none := by simp [eat,different]

theorem eat_some (got : eat c cs = some rest) : cs = c :: rest := by
  cases cs with
  | nil => cases got
  | cons d cs =>
    simp only [eat] at got
    split at got
    · rename_i same
      cases got
      rw [same]
    · cases got

theorem skipWs_blank (blank : Blank w) (cs : List Char) : skipWs (w ++ cs) = skipWs cs :=
  List.dropWhile_append_of_pos blank

theorem skipWs_solid (solid : isWs c = false) (cs : List Char) : skipWs (c :: cs) = c :: cs := by
  simp [skipWs,solid]

theorem skipWs_starts (starts : Starts raw) (rest : List Char) : skipWs (raw ++ rest) = raw ++ rest := by
  obtain ⟨c,cs,rfl,solid,_⟩ := starts
  exact skipWs_solid solid _

theorem skipWs_split (cs : List Char) : ∃ w, cs = w ++ skipWs cs ∧ Blank w :=
  ⟨cs.takeWhile isWs,List.takeWhile_append_dropWhile.symm,List.all_eq_true.mp List.all_takeWhile⟩

theorem stops_blank (blank : Blank w) (mark : c = ',' ∨ c = ']' ∨ c = '}') : Stops (w ++ c :: rest) := by
  intro first head
  cases w with
  | nil =>
    simp only [List.nil_append,List.head?_cons,Option.some.injEq] at head
    subst head
    rcases mark with rfl | rfl | rfl <;> decide
  | cons e w =>
    simp only [List.cons_append,List.head?_cons,Option.some.injEq] at head
    subst head
    have white := blank e (by simp)
    simp only [isWs,Bool.or_eq_true,decide_eq_true_eq] at white
    rcases white with ((rfl | rfl) | rfl) | rfl <;> decide

theorem reads_string (chars : ReadsChars body raw) : Reads d (.str (String.ofList body)) ('"' :: raw) := by
  intro fuel rest enough _
  cases fuel with
  | zero => cases enough
  | succ fuel =>
    have read := chars fuel rest (by simpa using enough)
    simp [value,read]

theorem reads_arr_nil (blank : Blank w) : Reads d (.arr []) ('[' :: (w ++ [']'])) := by
  intro fuel rest enough _
  cases fuel with
  | zero => cases enough
  | succ fuel =>
    have closed : skipWs (w ++ ']' :: rest) = ']' :: rest := by
      rw [skipWs_blank blank]; exact skipWs_solid rfl _
    simp [value,closed]

theorem reads_arr (blank : Blank w) (starts : Starts raw) (later : ReadsItems d vs raw) :
    Reads d (.arr vs) ('[' :: (w ++ raw)) := by
  intro fuel rest enough _
  cases fuel with
  | zero => cases enough
  | succ fuel =>
    simp only [List.length_cons,List.length_append] at enough
    have read := later fuel rest (by omega)
    have opened : skipWs (w ++ (raw ++ rest)) = raw ++ rest := by
      rw [skipWs_blank blank,skipWs_starts starts]
    have open' : eat ']' (raw ++ rest) = none := by
      obtain ⟨c,cs,rfl,_,different⟩ := starts
      exact eat_other different
    simp [value,opened,open',read]

theorem readsItems_last (first : Reads d v raw) (blank : Blank w) : ReadsItems d [v] (raw ++ (w ++ [']'])) := by
  intro fuel rest enough
  cases fuel with
  | zero => simp at enough
  | succ fuel =>
    simp only [List.length_cons,List.length_append,List.length_nil] at enough
    have read := first fuel (w ++ ']' :: rest) (by omega) (fun _ => stops_blank blank (by simp))
    have closed : skipWs (w ++ ']' :: rest) = ']' :: rest := by
      rw [skipWs_blank blank]; exact skipWs_solid rfl _
    simp [items,read,closed]

theorem readsItems_more (first : Reads d v raw) (blank : Blank w) (blank' : Blank w') (starts : Starts raws)
    (later : ReadsItems d vs raws) : ReadsItems d (v :: vs) (raw ++ (w ++ ',' :: (w' ++ raws))) := by
  intro fuel rest enough
  cases fuel with
  | zero => simp at enough
  | succ fuel =>
    simp only [List.length_cons,List.length_append] at enough
    have read := first fuel (w ++ ',' :: (w' ++ (raws ++ rest))) (by omega) (fun _ => stops_blank blank (by simp))
    have comma : skipWs (w ++ ',' :: (w' ++ (raws ++ rest))) = ',' :: (w' ++ (raws ++ rest)) := by
      rw [skipWs_blank blank]; exact skipWs_solid rfl _
    have opened : skipWs (w' ++ (raws ++ rest)) = raws ++ rest := by
      rw [skipWs_blank blank',skipWs_starts starts]
    have rests := later fuel rest (by omega)
    simp [items,read,comma,eat_other (show ',' ≠ ']' by decide),opened,rests]

theorem reads_obj_nil (blank : Blank w) : Reads d (.obj []) ('{' :: (w ++ ['}'])) := by
  intro fuel rest enough _
  cases fuel with
  | zero => cases enough
  | succ fuel =>
    have closed : skipWs (w ++ '}' :: rest) = '}' :: rest := by
      rw [skipWs_blank blank]; exact skipWs_solid rfl _
    simp [value,closed]

theorem reads_obj (blank : Blank w) (later : ReadsMembers d ms ('"' :: raw)) (built : buildObject d ms = some object) :
    Reads d (.obj object) ('{' :: (w ++ '"' :: raw)) := by
  intro fuel rest enough _
  cases fuel with
  | zero => cases enough
  | succ fuel =>
    simp only [List.length_cons,List.length_append] at enough
    have read := later fuel rest (by simp only [List.length_cons]; omega)
    have opened : skipWs (w ++ '"' :: (raw ++ rest)) = '"' :: (raw ++ rest) := by
      rw [skipWs_blank blank]; exact skipWs_solid rfl _
    rw [List.cons_append] at read
    simp [value,opened,eat_other (show '"' ≠ '}' by decide),read,built]

-- The part of a member up to its value.
def memberText (key w w' raw : List Char) : List Char := '"' :: (key ++ (w ++ ':' :: (w' ++ raw)))

theorem readsMembers_last (chars : ReadsChars body key) (blank : Blank w) (blank' : Blank w') (starts : Starts raw)
    (first : Reads d v raw) (blank'' : Blank w'') :
    ReadsMembers d [(String.ofList body,v)] (memberText key w w' raw ++ (w'' ++ ['}'])) := by
  intro fuel rest enough
  cases fuel with
  | zero => simp [memberText] at enough
  | succ fuel =>
    simp only [memberText,List.length_cons,List.length_append,List.length_nil] at enough
    have word := chars fuel (w ++ ':' :: (w' ++ (raw ++ (w'' ++ '}' :: rest)))) (by omega)
    have colon : skipWs (w ++ ':' :: (w' ++ (raw ++ (w'' ++ '}' :: rest)))) =
        ':' :: (w' ++ (raw ++ (w'' ++ '}' :: rest))) := by
      rw [skipWs_blank blank]; exact skipWs_solid rfl _
    have opened : skipWs (w' ++ (raw ++ (w'' ++ '}' :: rest))) = raw ++ (w'' ++ '}' :: rest) := by
      rw [skipWs_blank blank',skipWs_starts starts]
    have read := first fuel (w'' ++ '}' :: rest) (by omega) (fun _ => stops_blank blank'' (by simp))
    have closed : skipWs (w'' ++ '}' :: rest) = '}' :: rest := by
      rw [skipWs_blank blank'']; exact skipWs_solid rfl _
    simp [members,memberText,word,colon,opened,read,closed]

theorem readsMembers_more (chars : ReadsChars body key) (blank : Blank w) (blank' : Blank w') (starts : Starts raw)
    (first : Reads d v raw) (blank'' : Blank w'') (blank3 : Blank w3) (later : ReadsMembers d ms ('"' :: raws)) :
    ReadsMembers d ((String.ofList body,v) :: ms)
      (memberText key w w' raw ++ (w'' ++ ',' :: (w3 ++ '"' :: raws))) := by
  intro fuel rest enough
  cases fuel with
  | zero => simp [memberText] at enough
  | succ fuel =>
    simp only [memberText,List.length_cons,List.length_append] at enough
    let tail := w'' ++ ',' :: (w3 ++ '"' :: (raws ++ rest))
    have word := chars fuel (w ++ ':' :: (w' ++ (raw ++ tail))) (by omega)
    have colon : skipWs (w ++ ':' :: (w' ++ (raw ++ tail))) = ':' :: (w' ++ (raw ++ tail)) := by
      rw [skipWs_blank blank]; exact skipWs_solid rfl _
    have opened : skipWs (w' ++ (raw ++ tail)) = raw ++ tail := by
      rw [skipWs_blank blank',skipWs_starts starts]
    have read := first fuel tail (by omega) (fun _ => stops_blank blank'' (by simp))
    have comma : skipWs tail = ',' :: (w3 ++ '"' :: (raws ++ rest)) := by
      rw [skipWs_blank blank'']; exact skipWs_solid rfl _
    have next : skipWs (w3 ++ '"' :: (raws ++ rest)) = '"' :: (raws ++ rest) := by
      rw [skipWs_blank blank3]; exact skipWs_solid rfl _
    have rests := later fuel rest (by simp only [List.length_cons]; omega)
    rw [List.cons_append] at rests
    simp only [memberText,List.cons_append,List.append_assoc,members,eat_same,Option.bind_some]
    simp only [show w'' ++ ',' :: (w3 ++ '"' :: (raws ++ rest)) = tail from rfl,word,Option.bind_some,colon,eat_same,
      opened,read,comma,eat_other (show ',' ≠ '}' by decide),next,rests,Option.map_some]

theorem scanConstant_text (word : List Char) (found : Json) (rest : List Char) :
    scanConstant word found (word ++ rest) = some (found,rest) := by
  simp [scanConstant]

theorem scanConstant_other (different : e ≠ c) : scanConstant (e :: es) found (c :: cs) = none := by
  unfold scanConstant
  split
  · rename_i inside
    exact absurd (List.cons_prefix_cons.mp inside).1 different
  · rfl

theorem value_scalar (mark : c ≠ '"') (array : c ≠ '[') (object : c ≠ '{') :
    value d (fuel + 1) (c :: cs) = scanScalar d (c :: cs) := by
  simp [value,mark,array,object]

theorem reads_scalar (shape : raw = c :: cs) (mark : c ≠ '"') (array : c ≠ '[') (object : c ≠ '{')
    (read : ∀ rest, (isNumber v = true → Stops rest) → scanScalar d (raw ++ rest) = some (v,rest)) :
    Reads d v raw := by
  intro fuel rest enough stops
  cases fuel with
  | zero => simp [shape] at enough
  | succ fuel =>
    have result := read rest stops
    rw [shape,List.cons_append] at result ⊢
    rw [value_scalar mark array object,result]

theorem reads_null (d : Dialect) : Reads d .null nullWord := by
  refine reads_scalar rfl (by decide) (by decide) (by decide) (fun rest _ => ?_)
  rw [scanScalar,scanConstant_text]
  rfl

theorem reads_true (d : Dialect) : Reads d (.bool true) trueWord := by
  refine reads_scalar rfl (by decide) (by decide) (by decide) (fun rest _ => ?_)
  have null : scanConstant nullWord .null (trueWord ++ rest) = none := scanConstant_other (by decide)
  rw [scanScalar,null,scanConstant_text]
  rfl

theorem reads_false (d : Dialect) : Reads d (.bool false) falseWord := by
  refine reads_scalar rfl (by decide) (by decide) (by decide) (fun rest _ => ?_)
  have null : scanConstant nullWord .null (falseWord ++ rest) = none := scanConstant_other (by decide)
  have yes : scanConstant trueWord (.bool true) (falseWord ++ rest) = none := scanConstant_other (by decide)
  rw [scanScalar,null,yes,scanConstant_text]
  rfl

-- A text that starts with none of the three words' letters is left to the
-- special spellings and the numbers.
theorem scanScalar_rest (null : c ≠ 'n') (yes : c ≠ 't') (no : c ≠ 'f') :
    scanScalar d (c :: cs) =
      (scanSpecial d (c :: cs)).or ((scan (c :: cs)).map fun found => (tokenValue found.1,found.2)) := by
  have first : scanConstant nullWord .null (c :: cs) = none := scanConstant_other null.symm
  have second : scanConstant trueWord (.bool true) (c :: cs) = none := scanConstant_other yes.symm
  have third : scanConstant falseWord (.bool false) (c :: cs) = none := scanConstant_other no.symm
  rw [scanScalar,first,second,third]
  rfl

-- A number starts with a digit, after at most one minus sign.
theorem token_head (shaped : Token.Shaped t) (rest : List Char) :
    (∃ c cs, t.text ++ rest = c :: cs ∧ isDigit c = true) ∨
      ∃ c cs, t.text ++ rest = '-' :: c :: cs ∧ isDigit c = true := by
  obtain ⟨digits,nonempty,_,_,_⟩ := shaped
  cases shape : t.integer with
  | nil => exact (nonempty shape).elim
  | cons c cs =>
    have digit := digits c (by simp [shape])
    cases sign : t.negative with
    | false => exact .inl ⟨c,cs ++ (t.tail ++ rest),by simp [Token.text,shape,sign],digit⟩
    | true => exact .inr ⟨c,cs ++ (t.tail ++ rest),by simp [Token.text,shape,sign],digit⟩

theorem scanSpecial_none (nan : c ≠ 'N') (infinity : c ≠ 'I') (negative : c ≠ '-' ∨ cs.head? ≠ some 'I') :
    scanSpecial d (c :: cs) = none := by
  have first : scanConstant nanWord (.float .nan) (c :: cs) = none := scanConstant_other nan.symm
  have second : scanConstant infinityWord (.float (.infinite false)) (c :: cs) = none :=
    scanConstant_other infinity.symm
  have third : scanConstant ('-' :: infinityWord) (.float (.infinite true)) (c :: cs) = none := by
    rcases negative with different | different
    · exact scanConstant_other different.symm
    · unfold scanConstant
      split
      · rename_i inside
        have later := (List.cons_prefix_cons.mp inside).2
        cases cs with
        | nil => simp [infinityWord] at later
        | cons e es => exact absurd (congrArg some (List.cons_prefix_cons.mp later).1.symm) different
      · rfl
  unfold scanSpecial
  split
  · rw [first,second,third]
    rfl
  · rfl

theorem digit_not (digit : isDigit c = true) (other : isDigit e = false) : c ≠ e := by
  rintro rfl
  rw [digit] at other
  cases other

theorem reads_number (shaped : Token.Shaped t) : Reads d (tokenValue t) t.text := by
  have number : isNumber (tokenValue t) = true := by
    unfold tokenValue
    split <;> rfl
  have scalar (rest : List Char) (stops : isNumber (tokenValue t) = true → Stops rest) :
      scanScalar d (t.text ++ rest) = some (tokenValue t,rest) := by
    have token := scan_text shaped (stops number)
    rcases token_head shaped rest with ⟨c,cs,shape,digit⟩ | ⟨c,cs,shape,digit⟩
    · rw [shape] at token ⊢
      rw [scanScalar_rest (digit_not digit rfl) (digit_not digit rfl) (digit_not digit rfl),token,
        scanSpecial_none (digit_not digit rfl) (digit_not digit rfl) (.inl (digit_not digit rfl))]
      rfl
    · rw [shape] at token ⊢
      have other : (c :: cs).head? ≠ some 'I' := by
        simpa using digit_not digit (show isDigit 'I' = false from rfl)
      rw [scanScalar_rest (by decide) (by decide) (by decide),token,scanSpecial_none (by decide) (by decide) (.inr other)]
      rfl
  rcases token_head shaped [] with ⟨c,cs,shape,digit⟩ | ⟨c,cs,shape,digit⟩
  · rw [List.append_nil] at shape
    exact reads_scalar shape (digit_not digit rfl) (digit_not digit rfl) (digit_not digit rfl) scalar
  · rw [List.append_nil] at shape
    exact reads_scalar shape (by decide) (by decide) (by decide) scalar

theorem reads_special (shape : word = c :: cs) (null : c ≠ 'n') (yes : c ≠ 't') (no : c ≠ 'f') (mark : c ≠ '"')
    (array : c ≠ '[') (object : c ≠ '{') (read : ∀ rest, scanSpecial d (word ++ rest) = some (v,rest)) :
    Reads d v word := by
  refine reads_scalar shape mark array object (fun rest _ => ?_)
  have special := read rest
  rw [shape,List.cons_append] at special ⊢
  rw [scanScalar_rest null yes no,special]
  rfl

theorem reads_nonfinite (allowed : d.constants = true) (x : Float64) (special : ∀ y, x ≠ .finite y) :
    Reads d (.float x) (floatText x) := by
  cases x with
  | finite y => exact (special y rfl).elim
  | nan =>
    refine reads_special rfl (by decide) (by decide) (by decide) (by decide) (by decide) (by decide) (fun rest => ?_)
    rw [scanSpecial,if_pos allowed,floatText,scanConstant_text]
    rfl
  | infinite negative =>
    cases negative with
    | false =>
      have nan (rest : List Char) : scanConstant nanWord (.float .nan) (infinityWord ++ rest) = none :=
        scanConstant_other (by decide)
      refine reads_special rfl (by decide) (by decide) (by decide) (by decide) (by decide) (by decide) (fun rest => ?_)
      rw [scanSpecial,if_pos allowed]
      simp only [floatText,Bool.false_eq_true,if_false]
      rw [nan,scanConstant_text]
      rfl
    | true =>
      have nan (rest : List Char) : scanConstant nanWord (.float .nan) ('-' :: infinityWord ++ rest) = none :=
        scanConstant_other (by decide)
      have positive (rest : List Char) :
          scanConstant infinityWord (.float (.infinite false)) ('-' :: infinityWord ++ rest) = none :=
        scanConstant_other (by decide)
      refine reads_special rfl (by decide) (by decide) (by decide) (by decide) (by decide) (by decide) (fun rest => ?_)
      rw [scanSpecial,if_pos allowed]
      simp only [floatText,if_true]
      rw [nan,positive,scanConstant_text]
      rfl

theorem scanConstant_sound (got : scanConstant word found cs = some (v,rest)) : cs = word ++ rest ∧ v = found := by
  unfold scanConstant at got
  split at got
  · rename_i inside
    cases got
    exact ⟨(List.prefix_iff_eq_append.mp inside).symm,rfl⟩
  · cases got

end Json
