import IntentEngineering.Library.JsonSound

namespace Json
open Decimal Binary64 JsonNumber FloatText

-- The plain reader takes everything the strict one takes.
theorem scanScalar_plain (got : scanScalar strictDialect cs = some result) :
    scanScalar plainDialect cs = some result := by
  have silent : scanSpecial strictDialect cs = none := rfl
  simp only [scanScalar,silent,Option.none_or] at got
  cases cs with
  | nil => simpa [scanScalar,scanSpecial,scanConstant,nanWord,infinityWord] using got
  | cons c cs =>
    by_cases special : scanSpecial plainDialect (c :: cs) = none
    · simpa only [scanScalar,special,Option.none_or] using got
    · obtain ⟨⟨v,rest⟩,found⟩ := Option.ne_none_iff_exists'.mp special
      obtain ⟨_,x,rfl,notFinite,shape⟩ := special_sound found
      -- a constant is neither a word nor a number
      exfalso
      rw [shape] at got
      cases x with
      | finite y => exact notFinite y rfl
      | nan => simp [floatText,nanWord,scanConstant,nullWord,trueWord,falseWord,scan,scanNegative,scanInteger,isDigit] at got
      | infinite negative =>
        cases negative <;>
          simp [floatText,infinityWord,scanConstant,nullWord,trueWord,falseWord,scan,scanNegative,scanInteger,
            isDigit] at got

theorem buildObject_plain (got : buildObject strictDialect pairs = some built) :
    buildObject plainDialect pairs = some built := by
  unfold buildObject at got ⊢
  split at got
  · rw [if_pos (.inl rfl)]
    exact got
  · cases got

theorem reader_plain (fuel : Nat) :
    (∀ cs result, value strictDialect fuel cs = some result → value plainDialect fuel cs = some result) ∧
      (∀ cs result, items strictDialect fuel cs = some result → items plainDialect fuel cs = some result) ∧
      (∀ cs result, members strictDialect fuel cs = some result → members plainDialect fuel cs = some result) := by
  induction fuel with
  | zero => refine ⟨?_,?_,?_⟩ <;> intro _ _ got <;> simp [value,items,members] at got
  | succ fuel ih =>
    obtain ⟨valuePlain,itemsPlain,membersPlain⟩ := ih
    refine ⟨?_,?_,?_⟩
    · intro cs result got
      cases cs with
      | nil => cases got
      | cons c cs =>
        simp only [value] at got ⊢
        split
        · rename_i mark
          simpa only [mark,if_true] using got
        · rename_i mark
          simp only [mark,if_false] at got
          split
          · rename_i array
            simp only [array,if_true] at got
            split at got
            · exact got
            · obtain ⟨found,read,rfl⟩ := Option.map_eq_some_iff.mp got
              rw [itemsPlain _ _ read]
              rfl
          · rename_i array
            simp only [array,if_false] at got
            split
            · rename_i object
              simp only [object,if_true] at got
              split at got
              · exact got
              · simp only [Option.bind_eq_some_iff,Option.map_eq_some_iff] at got
                obtain ⟨found,read,built,build,rfl⟩ := got
                rw [membersPlain _ _ read,Option.bind_some,buildObject_plain build]
                rfl
            · rename_i object
              simp only [object,if_false] at got
              exact scanScalar_plain got
    · intro cs result got
      simp only [items,Option.bind_eq_some_iff] at got ⊢
      obtain ⟨found,read,got⟩ := got
      refine ⟨found,valuePlain _ _ read,?_⟩
      split at got
      · exact got
      · simp only [Option.bind_eq_some_iff,Option.map_eq_some_iff] at got ⊢
        obtain ⟨next,comma,later,read',rfl⟩ := got
        exact ⟨next,comma,later,itemsPlain _ _ read',rfl⟩
    · intro cs result got
      simp only [members,Option.bind_eq_some_iff] at got ⊢
      obtain ⟨opened,mark,key,word,next,colon,found,read,got⟩ := got
      refine ⟨opened,mark,key,word,next,colon,found,valuePlain _ _ read,?_⟩
      split at got
      · exact got
      · simp only [Option.bind_eq_some_iff,Option.map_eq_some_iff] at got ⊢
        obtain ⟨after,comma,later,read',rfl⟩ := got
        exact ⟨after,comma,later,membersPlain _ _ read',rfl⟩

theorem loads_plain (got : loads strictDialect cs = some v) : loads plainDialect cs = some v := by
  simp only [loads,Option.bind_eq_some_iff] at got ⊢
  obtain ⟨found,read,got⟩ := got
  exact ⟨found,(reader_plain _).1 _ _ read,got⟩

theorem loads_cut (d : Dialect) (known : d = strictDialect ∨ d = plainDialect) (formed : WellFormed (.obj ms))
    (split : text (.obj ms) = p ++ q) (cut : q ≠ []) (nonempty : p ≠ []) (blank : Blank w) :
    loads d (w ++ p) = none := by
  have plain := loads_cut_known plainDialect formed (.inl rfl) split cut nonempty blank
  rcases known with rfl | rfl
  · cases got : loads strictDialect (w ++ p) with
    | none => rfl
    | some v => rw [loads_plain got] at plain; cases plain
  · exact plain

-- Text that the strict reader cannot get past, whatever follows it.
def Fails (raw : List Char) : Prop :=
  ∀ fuel rest, raw.length ≤ fuel → value strictDialect fuel (raw ++ rest) = none

def FailsItems (raw : List Char) : Prop :=
  ∀ fuel rest, raw.length ≤ fuel → items strictDialect fuel (raw ++ rest) = none

def FailsMembers (raw : List Char) : Prop :=
  ∀ fuel rest, raw.length ≤ fuel → members strictDialect fuel (raw ++ rest) = none

theorem fails_float (x : Float64) (notFinite : allFinite (.float x) = false) : Fails (floatText x) := by
  intro fuel rest _
  cases fuel with
  | zero => simp [value]
  | succ fuel =>
    cases x with
    | finite y => cases notFinite
    | nan =>
      simp [floatText,nanWord,value,scanScalar,scanSpecial,strictDialect,scanConstant,nullWord,trueWord,falseWord,scan,
        scanNegative,scanInteger,isDigit]
    | infinite negative =>
      cases negative <;>
        simp [floatText,infinityWord,value,scanScalar,scanSpecial,strictDialect,scanConstant,nullWord,trueWord,falseWord,
          scan,scanNegative,scanInteger,isDigit]

theorem itemsText_pos (vs : List Json) : 0 < (itemsText vs).length := by
  cases vs <;> simp [itemsText]

theorem membersText_pos (ms : Members) : 0 < (membersText ms).length := by
  cases ms <;> simp [membersText]

theorem fails_arr (stuck : FailsItems raw) (starts : Starts raw) : Fails ('[' :: raw) := by
  intro fuel rest enough
  cases fuel with
  | zero => cases enough
  | succ fuel =>
    have read := stuck fuel rest (by simpa using enough)
    obtain ⟨c,cs,rfl,solid,array⟩ := starts
    simp only [List.cons_append] at read
    simp [value,skipWs_solid solid,eat_other array,read]

theorem fails_obj (stuck : FailsMembers ('"' :: raw)) : Fails ('{' :: '"' :: raw) := by
  intro fuel rest enough
  cases fuel with
  | zero => cases enough
  | succ fuel =>
    have read := stuck fuel rest (by simpa using enough)
    simp only [List.cons_append] at read
    have solid : skipWs ('"' :: (raw ++ rest)) = '"' :: (raw ++ rest) := skipWs_solid rfl _
    simp [value,solid,eat_other (show '"' ≠ '}' by decide),read]

-- Either the first item is stuck, or it is read and the others are stuck.
theorem failsItems_text (v : Json) (vs : List Json)
    (stuck : Fails (text v) ∨ (Reads strictDialect v (text v) ∧ ∃ w ws, vs = w :: ws ∧
      FailsItems (text w ++ itemsText ws))) : FailsItems (text v ++ itemsText vs) := by
  intro fuel rest enough
  cases fuel with
  | zero => simp [items]
  | succ fuel =>
    have more := itemsText_pos vs
    simp only [List.length_append] at enough
    rcases stuck with first | ⟨first,w,ws,rfl,later⟩
    · have read := first fuel (itemsText vs ++ rest) (by omega)
      simp [items,read]
    · simp only [itemsText,List.length_cons,List.length_append] at enough
      have read := first fuel (',' :: (text w ++ (itemsText ws ++ rest))) (by omega)
        (fun _ => stops_blank blank_nil (by simp))
      have comma : skipWs (',' :: (text w ++ (itemsText ws ++ rest))) = ',' :: (text w ++ (itemsText ws ++ rest)) :=
        skipWs_solid rfl _
      have opened := skipWs_starts (text_starts w) (itemsText ws ++ rest)
      have rests := later fuel rest (by simp only [List.length_append]; omega)
      rw [List.append_assoc] at rests
      simp [items,itemsText,read,comma,eat_other (show ',' ≠ ']' by decide),opened,rests]

-- Past the key, a member is its value and what closes it.
theorem members_key (d : Dialect) (k : String) (v : Json) (tail : List Char) (enough : (stringBody k).length ≤ fuel) :
    members d (fuel + 1) (stringText k ++ ':' :: (text v ++ tail)) =
      (value d fuel (text v ++ tail)).bind fun found =>
        match eat '}' (skipWs found.2) with
        | some rest => some ([(k,found.1)],rest)
        | none => (eat ',' (skipWs found.2)).bind fun rest =>
            (members d fuel (skipWs rest)).map fun later => ((k,found.1) :: later.1,later.2) := by
  have word : scanString fuel (stringBody k ++ ':' :: (text v ++ tail)) = some (k.toList,':' :: (text v ++ tail)) :=
    readsChars_text k.toList fuel _ enough
  have colon : skipWs (':' :: (text v ++ tail)) = ':' :: (text v ++ tail) := skipWs_solid rfl _
  have opened := skipWs_starts (text_starts v) tail
  simp only [members,stringText,List.cons_append,eat_same,Option.bind_some,word,colon,opened,String.ofList_toList]
  all_goals rfl

theorem failsMembers_text (k : String) (v : Json) (ms : Members)
    (stuck : Fails (text v) ∨ (Reads strictDialect v (text v) ∧ ∃ k' w ms', ms = (k',w) :: ms' ∧
      FailsMembers (stringText k' ++ ':' :: (text w ++ membersText ms')))) :
    FailsMembers (stringText k ++ ':' :: (text v ++ membersText ms)) := by
  intro fuel rest enough
  cases fuel with
  | zero => simp [members]
  | succ fuel =>
    have more := membersText_pos ms
    simp only [stringText,List.length_append,List.length_cons] at enough
    have key := members_key strictDialect k v (membersText ms ++ rest) (show (stringBody k).length ≤ fuel by omega)
    have shape : stringText k ++ ':' :: (text v ++ membersText ms) ++ rest =
        stringText k ++ ':' :: (text v ++ (membersText ms ++ rest)) := by simp
    rw [shape,key]
    rcases stuck with first | ⟨first,k',w,ms',rfl,later⟩
    · rw [first fuel _ (by omega)]
      rfl
    · simp only [membersText,List.length_cons,List.length_append] at enough
      have rests := later fuel rest (by simp only [List.length_append,List.length_cons]; omega)
      have opened : skipWs (stringText k' ++ ':' :: (text w ++ membersText ms') ++ rest) =
          stringText k' ++ ':' :: (text w ++ membersText ms') ++ rest := skipWs_solid rfl _
      have comma : skipWs (membersText ((k',w) :: ms') ++ rest) = membersText ((k',w) :: ms') ++ rest :=
        skipWs_solid rfl _
      have read := first fuel (membersText ((k',w) :: ms') ++ rest) (by omega)
        (fun _ => stops_blank blank_nil (.inl rfl))
      rw [read,Option.bind_some,comma]
      simp only [membersText,List.cons_append,eat_other (show ',' ≠ '}' by decide),eat_same,Option.bind_some,opened,
        rests,Option.map_none]

-- A value with a constant in it is written, and then refused by the strict reader.
mutual
theorem fails_text : (v : Json) → WellFormed v → allFinite v = false → Fails (text v)
  | .null,_,infinite => by cases infinite
  | .bool _,_,infinite => by cases infinite
  | .int _,_,infinite => by cases infinite
  | .str _,_,infinite => by cases infinite
  | .float x,_,infinite => fails_float x infinite
  | .arr [],_,infinite => by cases infinite
  | .arr (v :: vs),formed,infinite => by
    simp only [WellFormed,WellFormedItems] at formed
    exact fails_arr (fails_items v vs formed.1 (fails_text v formed.1) formed.2 infinite) ((text_starts v).append _)
  | .obj [],_,infinite => by cases infinite
  | .obj ((k,v) :: ms),formed,infinite => by
    simp only [WellFormed,WellFormedMembers] at formed
    exact fails_obj (fails_members k v ms formed.2.1 (fails_text v formed.2.1) formed.2.2 infinite)

theorem fails_items (v : Json) : (vs : List Json) → WellFormed v → (allFinite v = false → Fails (text v)) →
    WellFormedItems vs → allFiniteItems (v :: vs) = false → FailsItems (text v ++ itemsText vs)
  | [],_,stuck,_,infinite => by
    simp only [allFiniteItems,Bool.and_true] at infinite
    exact failsItems_text v [] (.inl (stuck infinite))
  | w :: ws,first,stuck,formed,infinite => by
    by_cases finite : allFinite v = true
    · simp only [WellFormedItems] at formed
      rw [allFiniteItems,finite,Bool.true_and] at infinite
      have later := fails_items w ws formed.1 (fails_text w formed.1) formed.2 infinite
      exact failsItems_text v (w :: ws) (.inr ⟨reads_text strictDialect v first (.inr finite),w,ws,rfl,later⟩)
    · exact failsItems_text v (w :: ws) (.inl (stuck (by simpa using finite)))

theorem fails_members (k : String) (v : Json) : (ms : List (String × Json)) → WellFormed v →
    (allFinite v = false → Fails (text v)) → WellFormedMembers ms → allFiniteMembers ((k,v) :: ms) = false →
    FailsMembers (stringText k ++ ':' :: (text v ++ membersText ms))
  | [],_,stuck,_,infinite => by
    simp only [allFiniteMembers,Bool.and_true] at infinite
    exact failsMembers_text k v [] (.inl (stuck infinite))
  | (k',w) :: ms,first,stuck,formed,infinite => by
    by_cases finite : allFinite v = true
    · simp only [WellFormedMembers] at formed
      rw [allFiniteMembers,finite,Bool.true_and] at infinite
      have later := fails_members k' w ms formed.1 (fails_text w formed.1) formed.2 infinite
      exact failsMembers_text k v ((k',w) :: ms)
        (.inr ⟨reads_text strictDialect v first (.inr finite),k',w,ms,rfl,later⟩)
    · exact failsMembers_text k v ((k',w) :: ms) (.inl (stuck (by simpa using finite)))
end

theorem loads_infinite (formed : WellFormed v) (infinite : allFinite v = false) (blank : Blank w) (more : List Char) :
    loads strictDialect (w ++ (text v ++ more)) = none := by
  have read := fails_text v formed infinite ((w ++ (text v ++ more)).length + 1) more
    (by simp only [List.length_append]; omega)
  rw [loads,skipWs_blank blank,skipWs_starts (text_starts v),read]
  rfl

end Json
