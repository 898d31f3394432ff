import IntentEngineering.Library.JsonStrings

namespace Json
open Decimal Binary64 JsonNumber FloatText

theorem starts_of (shape : raw = c :: cs) (solid : isWs c = false) (array : c ≠ ']') : Starts raw :=
  ⟨c,cs,shape,solid,array⟩

theorem Starts.append (starts : Starts raw) (more : List Char) : Starts (raw ++ more) := by
  obtain ⟨c,cs,rfl,solid,array⟩ := starts
  exact ⟨c,cs ++ more,rfl,solid,array⟩

theorem token_starts (shaped : Token.Shaped t) : Starts t.text := by
  rcases token_head shaped [] with ⟨c,cs,shape,digit⟩ | ⟨c,cs,shape,digit⟩
  · rw [List.append_nil] at shape
    refine starts_of shape ?_ (digit_not digit rfl)
    simp [isWs,digit_not digit (show isDigit ' ' = false from rfl),digit_not digit (show isDigit '\t' = false from rfl),
      digit_not digit (show isDigit '\n' = false from rfl),digit_not digit (show isDigit '\r' = false from rfl)]
  · rw [List.append_nil] at shape
    exact starts_of shape rfl (by decide)

theorem intToken_shaped (n : Int) : (intToken n).Shaped := by
  refine ⟨natText_digits _,natText_ne_nil _,fun zero => ?_,by simp [intToken,Digits],by simp [intToken]⟩
  by_cases none : n.natAbs = 0
  · simp only [intToken,none]; rfl
  · exact (natText_head none zero).elim

theorem tokenValue_int (n : Int) : tokenValue (intToken n) = .int n := by
  have notFloat : isFloat (intToken n) = false := by simp [isFloat,intToken]
  unfold tokenValue
  rw [notFloat]
  simp only [Bool.false_eq_true,if_false,intToken,natValue_natText,decide_eq_true_eq]
  congr 1
  split <;> omega

theorem tokenValue_float (x : Finite) : tokenValue (reprFloat x) = .float (.finite x) := by
  rw [tokenValue,if_pos (reprFloat_isFloat x),readFloat_reprFloat]

theorem reads_int (d : Dialect) (n : Int) : Reads d (.int n) (intToken n).text := by
  rw [←tokenValue_int n]
  exact reads_number (intToken_shaped n)

theorem reads_finite (d : Dialect) (x : Finite) : Reads d (.float (.finite x)) (reprFloat x).text := by
  rw [←tokenValue_float x]
  exact reads_number (reprFloat_shaped x)

theorem blank_nil : Blank [] := by simp [Blank]

-- Inserting past every key so far appends.
theorem insertMember_last {ms : Members} (after : ∀ key ∈ ms.map Prod.fst, key < k) : insertMember k v ms = ms ++ [(k,v)] := by
  induction ms with
  | nil => rfl
  | cons m ms ih =>
    obtain ⟨key,value⟩ := m
    have less : key < k := after key (by simp)
    have notLess : ¬k < key := lt_asymm less
    have different : k ≠ key := (ne_of_lt less).symm
    simp only [insertMember,notLess,different,if_false,List.cons_append]
    rw [ih fun other member => after other (by simp [member])]

theorem foldl_insertMember {before ms : Members} (sorted : ((before ++ ms).map Prod.fst).Pairwise (· < ·)) :
    ms.foldl (fun members pair => insertMember pair.1 pair.2 members) before = before ++ ms := by
  induction ms generalizing before with
  | nil => simp
  | cons m ms ih =>
    have after : ∀ key ∈ before.map Prod.fst, key < m.1 := by
      intro key member
      rw [List.map_append,List.pairwise_append] at sorted
      exact sorted.2.2 key member m.1 (by simp)
    rw [List.foldl_cons,insertMember_last after,ih (by simpa using sorted)]
    simp

theorem buildObject_sorted {ms : Members} (d : Dialect) (sorted : (ms.map Prod.fst).Pairwise (· < ·)) :
    buildObject d ms = some ms := by
  have distinct : (ms.map Prod.fst).Nodup := sorted.imp fun less => ne_of_lt less
  rw [buildObject,if_pos (.inr distinct),foldl_insertMember (by simpa using sorted)]
  rfl

theorem text_starts (v : Json) : Starts (text v) := by
  cases v with
  | null => exact starts_of rfl rfl (by decide)
  | bool b => cases b <;> exact starts_of rfl rfl (by decide)
  | int n => exact token_starts (intToken_shaped n)
  | float x =>
    cases x with
    | finite y => exact token_starts (reprFloat_shaped y)
    | infinite negative => cases negative <;> exact starts_of rfl rfl (by decide)
    | nan => exact starts_of rfl rfl (by decide)
  | str s => exact starts_of rfl rfl (by decide)
  | arr vs => cases vs <;> exact starts_of rfl rfl (by decide)
  | obj ms => cases ms <;> exact starts_of rfl rfl (by decide)

-- What `json.dumps` writes reads back as the value it wrote, as long as the
-- reader knows the constants in it.
mutual
theorem reads_text (d : Dialect) : (v : Json) → WellFormed v → (d.constants = true ∨ allFinite v = true) →
    Reads d v (text v)
  | .null,_,_ => reads_null d
  | .bool true,_,_ => reads_true d
  | .bool false,_,_ => reads_false d
  | .int n,_,_ => reads_int d n
  | .float (.finite x),_,_ => reads_finite d x
  | .float (.infinite negative),_,known => by
    refine reads_nonfinite ?_ _ (by simp)
    simpa [allFinite] using known
  | .float .nan,_,known => by
    refine reads_nonfinite ?_ _ (by simp)
    simpa [allFinite] using known
  | .str s,_,_ => reads_stringText d s
  | .arr [],_,_ => reads_arr_nil blank_nil
  | .arr (v :: vs),formed,known => by
    simp only [WellFormed,WellFormedItems] at formed
    simp only [allFinite,allFiniteItems,Bool.and_eq_true] at known
    have later := reads_items d v vs (reads_text d v formed.1 (known.imp id And.left)) formed.2
      (known.imp id And.right)
    exact reads_arr (w := []) blank_nil ((text_starts v).append _) later
  | .obj [],_,_ => reads_obj_nil blank_nil
  | .obj ((k,v) :: ms),formed,known => by
    simp only [WellFormed,WellFormedMembers] at formed
    simp only [allFinite,allFiniteMembers,Bool.and_eq_true] at known
    have later := reads_members d k v ms (reads_text d v formed.2.1 (known.imp id And.left)) formed.2.2
      (known.imp id And.right)
    exact reads_obj blank_nil later (buildObject_sorted d formed.1)

theorem reads_items (d : Dialect) (v : Json) : (vs : List Json) → Reads d v (text v) → WellFormedItems vs →
    (d.constants = true ∨ allFiniteItems vs = true) → ReadsItems d (v :: vs) (text v ++ itemsText vs)
  | [],first,_,_ => readsItems_last first blank_nil
  | w :: vs,first,formed,known => by
    simp only [WellFormedItems] at formed
    simp only [allFiniteItems,Bool.and_eq_true] at known
    have later := reads_items d w vs (reads_text d w formed.1 (known.imp id And.left)) formed.2 (known.imp id And.right)
    have read := readsItems_more (w := []) first blank_nil blank_nil ((text_starts w).append _) later
    simpa [itemsText] using read

theorem reads_members (d : Dialect) (k : String) (v : Json) : (ms : List (String × Json)) → Reads d v (text v) →
    WellFormedMembers ms → (d.constants = true ∨ allFiniteMembers ms = true) →
    ReadsMembers d ((k,v) :: ms) (stringText k ++ ':' :: (text v ++ membersText ms))
  | [],first,_,_ => by
    have read := readsMembers_last (readsChars_text k.toList) blank_nil blank_nil (text_starts v) first blank_nil
    simpa [memberText,stringText,stringBody,membersText] using read
  | (k',w) :: ms,first,formed,known => by
    simp only [WellFormedMembers] at formed
    simp only [allFiniteMembers,Bool.and_eq_true] at known
    have later := reads_members d k' w ms (reads_text d w formed.1 (known.imp id And.left)) formed.2
      (known.imp id And.right)
    have read := readsMembers_more (readsChars_text k.toList) blank_nil blank_nil (text_starts v) first blank_nil
      blank_nil later
    simpa [memberText,stringText,stringBody,membersText] using read
end

end Json
