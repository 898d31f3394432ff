import IntentEngineering.Library.Json

namespace Json
open Binary64

-- Numbers of every kind compare by value, flags among them; `nan` equals nothing.
inductive Amount where
  | finite (value : ℚ)
  | infinite (negative : Bool)
  | nan

def Amount.equal : Amount → Amount → Bool
  | .finite p, .finite q => decide (p = q)
  | .infinite a, .infinite b => a == b
  | _, _ => false

def Amount.less : Amount → Amount → Bool
  | .finite p, .finite q => decide (p < q)
  | .finite _, .infinite negative => !negative
  | .infinite negative, .finite _ => negative
  | .infinite a, .infinite b => a && !b
  | _, _ => false

def floatAmount : Float64 → Amount
  | .finite x => .finite (if x.negative then -x.magnitude else x.magnitude)
  | .infinite negative => .infinite negative
  | .nan => .nan

def amount : Json → Option Amount
  | .bool b => some (.finite (if b then 1 else 0))
  | .int n => some (.finite n)
  | .float x => some (floatAmount x)
  | _ => none

def scalarEqual (a b : Json) : Bool :=
  match amount a, amount b with
  | some x, some y => x.equal y
  | _, _ => false

-- `==` of decoded values. Members are listed by key, so equal dictionaries list
-- equal keys.
mutual
def equal : Json → Json → Bool
  | .null, .null => true
  | .str a, .str b => a == b
  | .arr xs, .arr ys => equalItems xs ys
  | .obj xs, .obj ys => equalMembers xs ys
  | a, b => scalarEqual a b

def equalItems : List Json → List Json → Bool
  | [], [] => true
  | x :: xs, y :: ys => equal x y && equalItems xs ys
  | _, _ => false

def equalMembers : List (String × Json) → List (String × Json) → Bool
  | [], [] => true
  | (k,x) :: xs, (l,y) :: ys => k == l && equal x y && equalMembers xs ys
  | _, _ => false
end

example : equal (.arr [.bool true,.int 0]) (.arr [.int 1,.bool false]) = true := by decide

theorem Amount.equal_trans {x y z : Amount} (first : x.equal y = true) (second : y.equal z = true) : x.equal z = true := by
  cases x <;> cases y <;> cases z <;> simp_all [Amount.equal]

theorem scalarEqual_iff (a b : Json) : scalarEqual a b = true ↔ ∃ x y, amount a = some x ∧ amount b = some y ∧ x.equal y = true := by
  cases first : amount a <;> cases second : amount b <;> simp [scalarEqual,first,second]

-- A number equals numbers only.
theorem equal_amount {a : Json} (number : amount a = some x) (b : Json) : equal a b = scalarEqual a b := by
  cases a <;> cases b <;> first | rfl | cases number

theorem equal_null {b : Json} : equal .null b = true ↔ b = .null := by
  cases b <;> simp [equal,scalarEqual,amount]

theorem equal_str {b : Json} : equal (.str s) b = true ↔ b = .str s := by
  cases b with
  | str t =>
    simp only [equal,beq_iff_eq,Json.str.injEq]
    exact eq_comm
  | _ => simp [equal,scalarEqual,amount]

theorem equal_arr {b : Json} : equal (.arr xs) b = true ↔ ∃ ys, b = .arr ys ∧ equalItems xs ys = true := by
  cases b <;> simp [equal,scalarEqual,amount]

theorem equal_obj {b : Json} : equal (.obj xs) b = true ↔ ∃ ys, b = .obj ys ∧ equalMembers xs ys = true := by
  cases b <;> simp [equal,scalarEqual,amount]

theorem equalItems_cons : equalItems (x :: xs) zs = true ↔ ∃ y ys, zs = y :: ys ∧ equal x y = true ∧ equalItems xs ys = true := by
  cases zs <;> simp [equalItems]

theorem equalMembers_cons : equalMembers ((k,x) :: xs) zs = true ↔
    ∃ y ys, zs = (k,y) :: ys ∧ equal x y = true ∧ equalMembers xs ys = true := by
  cases zs with
  | nil => simp [equalMembers]
  | cons z zs =>
    obtain ⟨l,y⟩ := z
    simp only [equalMembers,Bool.and_eq_true,beq_iff_eq,List.cons.injEq,Prod.mk.injEq]
    constructor
    · rintro ⟨⟨rfl,same⟩,rest⟩
      exact ⟨y,zs,⟨⟨rfl,rfl⟩,rfl⟩,same,rest⟩
    · rintro ⟨_,_,⟨⟨rfl,rfl⟩,rfl⟩,same,rest⟩
      exact ⟨⟨rfl,same⟩,rest⟩

theorem scalar_trans {a : Json} (number : amount a = some x) (first : equal a b = true) (second : equal b c = true) :
    equal a c = true := by
  rw [equal_amount number] at first ⊢
  obtain ⟨_,y,_,other,same⟩ := (scalarEqual_iff a b).mp first
  rw [equal_amount other] at second
  obtain ⟨_,z,again,third,next⟩ := (scalarEqual_iff b c).mp second
  rw [other] at again
  cases again
  apply (scalarEqual_iff a c).mpr
  exact ⟨_,_,‹_›,third,Amount.equal_trans same next⟩

mutual
theorem equal_trans : ∀ (a : Json) {b c : Json}, equal a b = true → equal b c = true → equal a c = true
  | .null, _, _, first, second => by
    rw [equal_null.mp first] at second
    exact second
  | .str _, _, _, first, second => by
    rw [equal_str.mp first] at second
    exact second
  | .bool _, _, _, first, second => scalar_trans rfl first second
  | .int _, _, _, first, second => scalar_trans rfl first second
  | .float _, _, _, first, second => scalar_trans rfl first second
  | .arr xs, _, _, first, second => by
    obtain ⟨ys,rfl,items⟩ := equal_arr.mp first
    obtain ⟨zs,rfl,others⟩ := equal_arr.mp second
    exact equalItems_trans xs items others
  | .obj xs, _, _, first, second => by
    obtain ⟨ys,rfl,members⟩ := equal_obj.mp first
    obtain ⟨zs,rfl,others⟩ := equal_obj.mp second
    exact equalMembers_trans xs members others

theorem equalItems_trans : ∀ (xs : List Json) {ys zs : List Json}, equalItems xs ys = true → equalItems ys zs = true →
    equalItems xs zs = true
  | [], ys, _, first, second => by
    cases ys with
    | nil => exact second
    | cons => cases first
  | x :: xs, _, _, first, second => by
    obtain ⟨y,ys,rfl,same,rest⟩ := equalItems_cons.mp first
    obtain ⟨z,zs,rfl,next,later⟩ := equalItems_cons.mp second
    exact equalItems_cons.mpr ⟨z,zs,rfl,equal_trans x same next,equalItems_trans xs rest later⟩

theorem equalMembers_trans : ∀ (xs : List (String × Json)) {ys zs : List (String × Json)}, equalMembers xs ys = true →
    equalMembers ys zs = true → equalMembers xs zs = true
  | [], ys, _, first, second => by
    cases ys with
    | nil => exact second
    | cons => cases first
  | (k,x) :: xs, _, _, first, second => by
    obtain ⟨y,ys,rfl,same,rest⟩ := equalMembers_cons.mp first
    obtain ⟨z,zs,rfl,next,later⟩ := equalMembers_cons.mp second
    exact equalMembers_cons.mpr ⟨z,zs,rfl,equal_trans x same next,equalMembers_trans xs rest later⟩
end

theorem Amount.equal_comm (x y : Amount) : x.equal y = y.equal x := by
  cases x <;> cases y <;> simp [Amount.equal,eq_comm]

theorem scalarEqual_comm (a b : Json) : scalarEqual a b = scalarEqual b a := by
  cases first : amount a <;> cases second : amount b <;> simp [scalarEqual,first,second,Amount.equal_comm]

theorem scalar_symm {a : Json} (number : amount a = some x) (same : equal a b = true) : equal b a = true := by
  rw [equal_amount number] at same
  obtain ⟨_,y,_,other,_⟩ := (scalarEqual_iff a b).mp same
  rw [equal_amount other,scalarEqual_comm]
  exact same

mutual
theorem equal_symm : ∀ (a : Json) {b : Json}, equal a b = true → equal b a = true
  | .null, _, same => by
    rw [equal_null.mp same]
    rfl
  | .str _, _, same => by
    rw [equal_str.mp same]
    exact equal_str.mpr rfl
  | .bool _, _, same => scalar_symm rfl same
  | .int _, _, same => scalar_symm rfl same
  | .float _, _, same => scalar_symm rfl same
  | .arr xs, _, same => by
    obtain ⟨ys,rfl,items⟩ := equal_arr.mp same
    exact equal_arr.mpr ⟨xs,rfl,equalItems_symm xs items⟩
  | .obj xs, _, same => by
    obtain ⟨ys,rfl,members⟩ := equal_obj.mp same
    exact equal_obj.mpr ⟨xs,rfl,equalMembers_symm xs members⟩

theorem equalItems_symm : ∀ (xs : List Json) {ys : List Json}, equalItems xs ys = true → equalItems ys xs = true
  | [], ys, same => by
    cases ys with
    | nil => rfl
    | cons => cases same
  | x :: xs, _, same => by
    obtain ⟨y,ys,rfl,first,rest⟩ := equalItems_cons.mp same
    exact equalItems_cons.mpr ⟨x,xs,rfl,equal_symm x first,equalItems_symm xs rest⟩

theorem equalMembers_symm : ∀ (xs : List (String × Json)) {ys : List (String × Json)}, equalMembers xs ys = true →
    equalMembers ys xs = true
  | [], ys, same => by
    cases ys with
    | nil => rfl
    | cons => cases same
  | (k,x) :: xs, _, same => by
    obtain ⟨y,ys,rfl,first,rest⟩ := equalMembers_cons.mp same
    exact equalMembers_cons.mpr ⟨x,xs,rfl,equal_symm x first,equalMembers_symm xs rest⟩
end

-- Equal dictionaries hold equal values under every key.
theorem equalMembers_lookup {xs ys : Members} (same : equalMembers xs ys = true) (key : String) :
    xs.lookup key = none ∧ ys.lookup key = none ∨
      ∃ x y, xs.lookup key = some x ∧ ys.lookup key = some y ∧ equal x y = true := by
  induction xs generalizing ys with
  | nil =>
    cases ys with
    | nil => exact .inl ⟨rfl,rfl⟩
    | cons => cases same
  | cons first rest ih =>
    obtain ⟨k,x⟩ := first
    obtain ⟨y,others,rfl,found,later⟩ := equalMembers_cons.mp same
    by_cases here : key = k
    · subst here
      exact .inr ⟨x,y,by simp,by simp,found⟩
    · simpa [List.lookup_cons,beq_eq_false_iff_ne.mpr here] using ih later

-- Equal lists hold the same texts.
theorem equalItems_any {xs ys : List Json} (same : equalItems xs ys = true) (text : String) :
    (xs.any fun x => equal (.str text) x) = ys.any fun y => equal (.str text) y := by
  induction xs generalizing ys with
  | nil =>
    cases ys with
    | nil => rfl
    | cons => cases same
  | cons x xs ih =>
    obtain ⟨y,others,rfl,found,later⟩ := equalItems_cons.mp same
    have heads : equal (.str text) x = equal (.str text) y := by
      rw [Bool.eq_iff_iff]
      exact ⟨fun first => equal_trans _ first found,fun second => equal_trans _ second (equal_symm x found)⟩
    simp only [List.any_cons,heads,ih later]

theorem equalMembers_member (same : equalMembers xs ys = true) (member : (k,x) ∈ xs) : ∃ y, (k,y) ∈ ys ∧ equal x y = true := by
  induction xs generalizing ys with
  | nil => cases member
  | cons first rest ih =>
    obtain ⟨l,z⟩ := first
    obtain ⟨y,others,rfl,found,later⟩ := equalMembers_cons.mp same
    cases member with
    | head => exact ⟨y,List.mem_cons_self,found⟩
    | tail _ member =>
      obtain ⟨w,present,equals⟩ := ih later member
      exact ⟨w,List.mem_cons_of_mem _ present,equals⟩

end Json
