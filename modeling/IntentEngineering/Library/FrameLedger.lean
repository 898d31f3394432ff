import IntentEngineering.Library.ByteFrames

open Schema ByteFrames

-- A ledger that is only ever appended to: one canonical frame a record, and a
-- state that takes the records one after the other or refuses one of them.
namespace FrameLedger

variable {ρ σ : Type} (codec : Codec ρ) (step : σ → ρ → Option σ) (start : σ)

def decode (content : Option Utf8.Bytes) : Option σ :=
  match content with
  | none => some start
  | some bytes => readLines codec (fun s _ r => step s r) 0 start (LineText.lines byteRule bytes)

def replayed (rs : List ρ) : Option σ := replay (fun s _ r => step s r) 0 start rs

-- The content after an append of these bytes.
def extended (content : Option Utf8.Bytes) (bytes : Utf8.Bytes) : Option Utf8.Bytes := some (content.getD [] ++ bytes)

variable {codec step start}

theorem replayed_nil : replayed step start [] = some start := rfl

theorem replayed_snoc (rs : List ρ) (r : ρ) :
    replayed step start (rs ++ [r]) = (replayed step start rs).bind fun s => step s r :=
  replay_last _ _ rs r

-- What every record preserves, a ledger has.
theorem replayed_holds {P : List ρ → σ → Prop} (first : P [] start)
    (next : ∀ rs s r s', P rs s → step s r = some s' → P (rs ++ [r]) s') {rs : List ρ} {s : σ}
    (held : replayed step start rs = some s) : P rs s := by
  induction rs using List.reverseRecOn generalizing s with
  | nil =>
    cases held
    exact first
  | append_singleton rs r ih =>
    rw [replayed_snoc] at held
    obtain ⟨before,earlier,taken⟩ := Option.bind_eq_some_iff.mp held
    exact next rs before r s (ih earlier) taken

theorem decode_iff (objects : ∀ r, ∃ ms, codec.dump r = .obj ms) [codec.Finite] (content : Option Utf8.Bytes) (s : σ) :
    decode codec step start content = some s ↔
      ∃ rs, content.getD [] = contentOf codec rs ∧ replayed step start rs = some s := by
  cases content with
  | none =>
    constructor
    · intro read
      exact ⟨[],rfl,read⟩
    · rintro ⟨rs,empty,held⟩
      have same : contentOf codec rs = contentOf codec [] := empty.symm
      have none : rs = [] := contentOf_injective same
      subst none
      exact held
  | some bytes =>
    rw [decode,readLines_iff objects]
    simp only [lines_texts,Option.getD_some]
    constructor
    · rintro ⟨rs,same,_,held⟩
      exact ⟨rs,same,held⟩
    · rintro ⟨rs,same,held⟩
      exact ⟨rs,same,fun r _ => Codec.Finite.finite (c := codec) r,held⟩

-- Bytes behind whole frames that do not end a line are not part of any frame.
theorem frames_last (rs : List ρ) (torn : Utf8.Bytes) (cut : torn.getLast? ≠ some 10)
    (whole : contentOf codec rs ++ torn = contentOf codec rs') : torn = [] := by
  cases torn using List.reverseRecOn with
  | nil => rfl
  | append_singleton front b =>
    have last : (contentOf codec rs').getLast? = some b := by
      rw [←whole,←List.append_assoc,List.getLast?_concat]
    cases rs' using List.reverseRecOn with
    | nil => cases last
    | append_singleton rs'' r =>
      simp only [contentOf,List.flatMap_append,List.flatMap_singleton,serialize,frame_bytes,←List.append_assoc,
        List.getLast?_concat,Option.some.injEq] at last
      subst last
      simp at cut

-- A frame that was cut off does not end its line.
theorem part_open {part : Utf8.Bytes} {r : ρ} (first : part <+: serialize codec r) (cut : part ≠ serialize codec r) :
    part.getLast? ≠ some 10 := by
  obtain ⟨rest,split⟩ := first
  rw [serialize,frame_bytes] at split cut
  have inside : part <+: Utf8.encode (Json.text (codec.dump r)) := by
    cases rest using List.reverseRecOn with
    | nil => exact absurd (by simpa using split) cut
    | append_singleton front b =>
      rw [←List.append_assoc] at split
      exact ⟨front,(List.append_inj' split rfl).1⟩
  intro last
  have member := inside.subset (List.mem_of_getLast? last)
  have plain := plain_bytes (codec.dump r) 10 member
  cases plain

theorem decode_extended (objects : ∀ r, ∃ ms, codec.dump r = .obj ms) [codec.Finite] {content : Option Utf8.Bytes} {s s' : σ} {r : ρ}
    (read : decode codec step start content = some s) (taken : step s r = some s') :
    decode codec step start (extended content (serialize codec r)) = some s' := by
  obtain ⟨rs,whole,held⟩ := (decode_iff objects content s).mp read
  apply (decode_iff objects _ s').mpr
  refine ⟨rs ++ [r],?_,?_⟩
  · simp [extended,whole,contentOf]
  · rw [replayed_snoc,held,Option.bind_some,taken]

-- Behind a ledger that decodes, an append in part decodes only when nothing or
-- everything of it was written.
theorem decode_part (objects : ∀ r, ∃ ms, codec.dump r = .obj ms) [codec.Finite] {content : Option Utf8.Bytes} {part : Utf8.Bytes}
    {s s' : σ} {r : ρ} (read : decode codec step start content = some s) (first : part <+: serialize codec r)
    (later : decode codec step start (extended content part) = some s') : s' = s ∨ part = serialize codec r ∧ step s r = some s' := by
  obtain ⟨rs,whole,held⟩ := (decode_iff objects content s).mp read
  obtain ⟨rs',whole',held'⟩ := (decode_iff objects _ s').mp later
  rw [extended,Option.getD_some,whole] at whole'
  by_cases full : part = serialize codec r
  · refine .inr ⟨full,?_⟩
    have same : contentOf codec (rs ++ [r]) = contentOf codec rs' := by
      rw [←whole',full]
      simp [contentOf]
    rw [←contentOf_injective same,replayed_snoc,held,Option.bind_some] at held'
    exact held'
  · refine .inl ?_
    have empty := frames_last rs part (part_open first full) whole'
    rw [empty,List.append_nil] at whole'
    rw [contentOf_injective whole',held'] at held
    exact Option.some.inj held

end FrameLedger
