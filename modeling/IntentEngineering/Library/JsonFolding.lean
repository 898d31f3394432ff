import IntentEngineering.Library.JsonLines

open JsonLines

-- What the library may make of a value between writing and reading it: a string
-- with a line separator in it may come back as another one.
mutual

inductive Json.Folded : Json → Json → Prop where
  | null : Json.Folded .null .null
  | bool (b : Bool) : Json.Folded (.bool b) (.bool b)
  | int (n : Int) : Json.Folded (.int n) (.int n)
  | float (x) : Json.Folded (.float x) (.float x)
  | str (s s' : String) (kept : UnbrokenText s → s' = s) : Json.Folded (.str s) (.str s')
  | arr (items : Json.FoldedItems vs vs') : Json.Folded (.arr vs) (.arr vs')
  | obj (members : Json.FoldedMembers ms ms') : Json.Folded (.obj ms) (.obj ms')

inductive Json.FoldedItems : List Json → List Json → Prop where
  | nil : Json.FoldedItems [] []
  | cons (item : Json.Folded v v') (rest : Json.FoldedItems vs vs') : Json.FoldedItems (v :: vs) (v' :: vs')

inductive Json.FoldedMembers : Members → Members → Prop where
  | nil : Json.FoldedMembers [] []
  | cons (key key' : String) (kept : UnbrokenText key → key' = key) (value : Json.Folded v v') (rest : Json.FoldedMembers ms ms') :
      Json.FoldedMembers ((key,v) :: ms) ((key',v') :: ms')

end

namespace Json

mutual

theorem folded_unbroken {v v' : Json} (folded : v.Folded v') (unbroken : ∀ s ∈ v.strings, UnbrokenText s) : v' = v := by
  cases folded with
  | str s s' kept => rw [kept (unbroken s (by simp [Json.strings]))]
  | arr items => rw [folded_items items unbroken]
  | obj members => rw [folded_members members unbroken]
  | _ => rfl

theorem folded_items {vs vs' : List Json} (folded : Json.FoldedItems vs vs') (unbroken : ∀ s ∈ Json.stringsItems vs, UnbrokenText s) : vs' = vs := by
  cases folded with
  | nil => rfl
  | cons item rest =>
    have first := folded_unbroken item fun s member => unbroken s (by simp [Json.stringsItems,member])
    have later := folded_items rest fun s member => unbroken s (by simp [Json.stringsItems,member])
    rw [first,later]

theorem folded_members {ms ms' : Json.Members} (folded : Json.FoldedMembers ms ms') (unbroken : ∀ s ∈ Json.stringsMembers ms, UnbrokenText s) : ms' = ms := by
  cases folded with
  | nil => rfl
  | cons key key' kept value rest =>
    have name := kept (unbroken key (by simp [Json.stringsMembers]))
    have first := folded_unbroken value fun s member => unbroken s (by simp [Json.stringsMembers,member])
    have later := folded_members rest fun s member => unbroken s (by simp [Json.stringsMembers,member])
    rw [name,first,later]

end

-- One string stands among members that come back as they are.
theorem folded_text {before after : Json.Members} (folded : Json.FoldedMembers (before ++ (key,.str s) :: after) ms')
    (unbroken : ∀ text ∈ Json.stringsMembers before, UnbrokenText text) (name : UnbrokenText key) :
    ∃ s' after', ms' = before ++ (key,.str s') :: after' ∧ Json.FoldedMembers after after' := by
  induction before generalizing ms' with
  | nil =>
    cases folded with
    | cons key key' kept value rest =>
      cases value with
      | str s s' _ =>
        rw [kept name]
        exact ⟨s',_,rfl,rest⟩
  | cons first rest ih =>
    cases folded with
    | cons key key' kept value later =>
      obtain ⟨s',after',shape,folded⟩ := ih later fun text member => unbroken text (by simp [Json.stringsMembers,member])
      have same := folded_unbroken value fun text member => unbroken text (by simp [Json.stringsMembers,member])
      have head := kept (unbroken key (by simp [Json.stringsMembers]))
      subst same head shape
      exact ⟨s',after',rfl,folded⟩

mutual

theorem folded_refl (v : Json) : v.Folded v := by
  cases v with
  | null => exact .null
  | bool b => exact .bool b
  | int n => exact .int n
  | float x => exact .float x
  | str s => exact .str s s fun _ => rfl
  | arr vs => exact .arr (foldedItems_refl vs)
  | obj ms => exact .obj (foldedMembers_refl ms)

theorem foldedItems_refl (vs : List Json) : Json.FoldedItems vs vs := by
  cases vs with
  | nil => exact .nil
  | cons v vs => exact .cons (folded_refl v) (foldedItems_refl vs)

theorem foldedMembers_refl (ms : Json.Members) : Json.FoldedMembers ms ms := by
  cases ms with
  | nil => exact .nil
  | cons m ms => exact .cons m.1 m.1 (fun _ => rfl) (folded_refl m.2) (foldedMembers_refl ms)

end

-- A member is found under the same name, folded.
theorem folded_lookup {ms ms' : Members} (folded : FoldedMembers ms ms') (names : ∀ m ∈ ms, UnbrokenText m.1) (name : String) :
    (ms.lookup name = none → ms'.lookup name = none) ∧
      ∀ v, ms.lookup name = some v → ∃ v', ms'.lookup name = some v' ∧ v.Folded v' := by
  induction ms generalizing ms' with
  | nil =>
    cases folded
    exact ⟨fun absent => absent,fun v found => by cases found⟩
  | cons first rest ih =>
    cases folded with
    | cons key key' kept value later =>
      have same := kept (names _ List.mem_cons_self)
      subst same
      obtain ⟨absent,present⟩ := ih later fun m member => names m (List.mem_cons_of_mem _ member)
      simp only [List.lookup_cons]
      cases here : name == key' with
      | true =>
        refine ⟨?_,?_⟩
        · intro impossible
          cases impossible
        · intro v found
          cases found
          exact ⟨_,rfl,value⟩
      | false => exact ⟨absent,present⟩

end Json
