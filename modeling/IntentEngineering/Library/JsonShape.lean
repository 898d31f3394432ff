import IntentEngineering.Library.JsonDialect

namespace Json
open Decimal Binary64 JsonNumber FloatText

mutual
def decWellFormed : (v : Json) → Decidable (WellFormed v)
  | .null => .isTrue trivial
  | .bool _ => .isTrue trivial
  | .int _ => .isTrue trivial
  | .float _ => .isTrue trivial
  | .str _ => .isTrue trivial
  | .arr vs => decWellFormedItems vs
  | .obj ms =>
    have := decWellFormedMembers ms
    inferInstanceAs (Decidable ((ms.map Prod.fst).Pairwise (· < ·) ∧ WellFormedMembers ms))

def decWellFormedItems : (vs : List Json) → Decidable (WellFormedItems vs)
  | [] => .isTrue trivial
  | v :: vs =>
    have := decWellFormed v
    have := decWellFormedItems vs
    inferInstanceAs (Decidable (WellFormed v ∧ WellFormedItems vs))

def decWellFormedMembers : (ms : List (String × Json)) → Decidable (WellFormedMembers ms)
  | [] => .isTrue trivial
  | (_,v) :: ms =>
    have := decWellFormed v
    have := decWellFormedMembers ms
    inferInstanceAs (Decidable (WellFormed v ∧ WellFormedMembers ms))
end

instance (v : Json) : Decidable (WellFormed v) := decWellFormed v

theorem insertMember_keys {ms : Members} (member : key ∈ (insertMember k v ms).map Prod.fst) :
    key = k ∨ key ∈ ms.map Prod.fst := by
  induction ms with
  | nil => simpa [insertMember] using member
  | cons m ms ih =>
    simp only [insertMember] at member
    split at member
    · simpa using member
    · split at member
      · rename_i same
        rcases (by simpa using member : key = k ∨ _) with here | later
        · exact .inl here
        · exact .inr (by simp [later])
      · rcases (by simpa using member : key = m.1 ∨ _) with here | ⟨w,later⟩
        · exact .inr (by simp [here])
        · rcases ih (List.mem_map.mpr ⟨(key,w),later,rfl⟩) with new | old
          · exact .inl new
          · exact .inr (by simp only [List.map_cons,List.mem_cons]; exact .inr old)

theorem insertMember_sorted {ms : Members} (sorted : (ms.map Prod.fst).Pairwise (· < ·)) :
    ((insertMember k v ms).map Prod.fst).Pairwise (· < ·) := by
  induction ms with
  | nil => simp [insertMember]
  | cons m ms ih =>
    obtain ⟨first,rest⟩ := List.pairwise_cons.mp sorted
    simp only [insertMember]
    split
    · rename_i less
      refine List.pairwise_cons.mpr ⟨fun key member => ?_,sorted⟩
      rcases List.mem_cons.mp member with rfl | later
      · exact less
      · exact lt_trans less (first key later)
    · split
      · rename_i same
        simpa only [List.map_cons,same] using sorted
      · rename_i notLess different
        refine List.pairwise_cons.mpr ⟨fun key member => ?_,ih rest⟩
        rcases insertMember_keys member with rfl | old
        · exact lt_of_le_of_ne (not_lt.mp notLess) (Ne.symm different)
        · exact first key old

theorem insertMember_formed {ms : Members} (first : WellFormed v) (formed : WellFormedMembers ms) :
    WellFormedMembers (insertMember k v ms) := by
  induction ms with
  | nil => exact ⟨first,trivial⟩
  | cons m ms ih =>
    simp only [insertMember]
    split
    · exact ⟨first,formed⟩
    · split
      · exact ⟨first,formed.2⟩
      · exact ⟨formed.1,ih formed.2⟩

theorem buildObject_formed (built : buildObject d pairs = some object) (formed : WellFormedMembers pairs) :
    WellFormed (.obj object) := by
  have each (pairs : Members) : ∀ start : Members, WellFormed (.obj start) → WellFormedMembers pairs →
      WellFormed (.obj (pairs.foldl (fun members pair => insertMember pair.1 pair.2 members) start)) := by
    induction pairs with
    | nil => exact fun _ start _ => start
    | cons pair pairs ih =>
      intro start wellFormed rest
      exact ih _ ⟨insertMember_sorted wellFormed.1,insertMember_formed rest.1 wellFormed.2⟩ rest.2
  unfold buildObject at built
  split at built
  · cases built
    exact each pairs [] ⟨by simp,trivial⟩ formed
  · cases built

theorem scalar_formed (got : scanScalar d cs = some (v,rest)) : WellFormed v := by
  simp only [scanScalar,Option.or_eq_some_iff] at got
  rcases got with null | ⟨_,yes | ⟨_,no | ⟨_,special | ⟨_,number⟩⟩⟩⟩
  · rw [(scanConstant_sound null).2]; trivial
  · rw [(scanConstant_sound yes).2]; trivial
  · rw [(scanConstant_sound no).2]; trivial
  · obtain ⟨_,x,rfl,_⟩ := special_sound special
    trivial
  · simp only [Option.map_eq_some_iff,Prod.mk.injEq] at number
    obtain ⟨⟨t,after⟩,_,rfl,_⟩ := number
    unfold tokenValue
    split <;> trivial

-- The dictionaries the reader builds are sorted at every level.
theorem reader_formed (d : Dialect) (fuel : Nat) :
    (∀ cs v rest, value d fuel cs = some (v,rest) → WellFormed v) ∧
      (∀ cs vs rest, items d fuel cs = some (vs,rest) → WellFormedItems vs) ∧
      (∀ cs ms rest, members d fuel cs = some (ms,rest) → WellFormedMembers ms) := by
  induction fuel with
  | zero => refine ⟨?_,?_,?_⟩ <;> intro _ _ _ got <;> simp [value,items,members] at got
  | succ fuel ih =>
    obtain ⟨valueFormed,itemsFormed,membersFormed⟩ := ih
    refine ⟨?_,?_,?_⟩
    · intro cs v rest got
      cases cs with
      | nil => cases got
      | cons c cs =>
        simp only [value] at got
        split at got
        · obtain ⟨_,_,same⟩ := Option.map_eq_some_iff.mp got
          cases same
          trivial
        · split at got
          · split at got
            · cases got; trivial
            · obtain ⟨found,read,same⟩ := Option.map_eq_some_iff.mp got
              cases same
              exact itemsFormed _ _ _ read
          · split at got
            · split at got
              · cases got; exact ⟨by simp,trivial⟩
              · simp only [Option.bind_eq_some_iff,Option.map_eq_some_iff] at got
                obtain ⟨found,read,built,build,same⟩ := got
                cases same
                exact buildObject_formed build (membersFormed _ _ _ read)
            · exact scalar_formed got
    · intro cs vs rest got
      simp only [items,Option.bind_eq_some_iff] at got
      obtain ⟨found,read,got⟩ := got
      have first := valueFormed _ _ _ read
      split at got
      · cases got; exact ⟨first,trivial⟩
      · simp only [Option.bind_eq_some_iff,Option.map_eq_some_iff] at got
        obtain ⟨next,_,later,read',same⟩ := got
        cases same
        exact ⟨first,itemsFormed _ _ _ read'⟩
    · intro cs ms rest got
      simp only [members,Option.bind_eq_some_iff] at got
      obtain ⟨opened,_,key,_,next,_,found,read,got⟩ := got
      have first := valueFormed _ _ _ read
      split at got
      · cases got; exact ⟨first,trivial⟩
      · simp only [Option.bind_eq_some_iff,Option.map_eq_some_iff] at got
        obtain ⟨after,_,later,read',same⟩ := got
        cases same
        exact ⟨first,membersFormed _ _ _ read'⟩

theorem loads_formed (got : loads d cs = some v) : WellFormed v := by
  simp only [loads,Option.bind_eq_some_iff] at got
  obtain ⟨⟨found,after⟩,read,got⟩ := got
  simp only at got
  split at got
  · cases got
    exact (reader_formed d _).1 _ _ _ read
  · cases got

end Json
