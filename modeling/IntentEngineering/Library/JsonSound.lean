import IntentEngineering.Library.JsonRoundTrip

namespace Json
open Decimal Binary64 JsonNumber FloatText

theorem special_sound (got : scanSpecial d cs = some (v,rest)) :
    d.constants = true ∧ ∃ x, v = .float x ∧ (∀ y, x ≠ .finite y) ∧ cs = floatText x ++ rest := by
  unfold scanSpecial at got
  split at got
  · rename_i allowed
    refine ⟨allowed,?_⟩
    simp only [Option.or_eq_some_iff] at got
    rcases got with nan | ⟨_,infinity | ⟨_,negative⟩⟩
    · obtain ⟨shape,rfl⟩ := scanConstant_sound nan
      exact ⟨.nan,rfl,by simp,shape⟩
    · obtain ⟨shape,rfl⟩ := scanConstant_sound infinity
      exact ⟨.infinite false,rfl,by simp,shape⟩
    · obtain ⟨shape,rfl⟩ := scanConstant_sound negative
      exact ⟨.infinite true,rfl,by simp,shape⟩
  · cases got

theorem scalar_sound (got : scanScalar d cs = some (v,rest)) :
    ∃ raw, cs = raw ++ rest ∧ Starts raw ∧ Reads d v raw := by
  simp only [scanScalar,Option.or_eq_some_iff] at got
  rcases got with null | ⟨_,yes | ⟨_,no | ⟨_,special | ⟨_,number⟩⟩⟩⟩
  · obtain ⟨shape,rfl⟩ := scanConstant_sound null
    exact ⟨nullWord,shape,text_starts .null,reads_null d⟩
  · obtain ⟨shape,rfl⟩ := scanConstant_sound yes
    exact ⟨trueWord,shape,text_starts (.bool true),reads_true d⟩
  · obtain ⟨shape,rfl⟩ := scanConstant_sound no
    exact ⟨falseWord,shape,text_starts (.bool false),reads_false d⟩
  · obtain ⟨allowed,x,rfl,notFinite,shape⟩ := special_sound special
    exact ⟨floatText x,shape,text_starts (.float x),reads_nonfinite allowed x notFinite⟩
  · simp only [Option.map_eq_some_iff,Prod.mk.injEq] at number
    obtain ⟨⟨t,after⟩,found,rfl,rfl⟩ := number
    obtain ⟨shape,shaped⟩ := scan_sound found
    exact ⟨t.text,shape,token_starts shaped,reads_number shaped⟩

def ValueSound (d : Dialect) (fuel : Nat) : Prop := ∀ cs v rest, value d fuel cs = some (v,rest) →
  ∃ raw, cs = raw ++ rest ∧ Starts raw ∧ Reads d v raw

def ItemsSound (d : Dialect) (fuel : Nat) : Prop := ∀ cs vs rest, items d fuel cs = some (vs,rest) →
  ∃ raw, cs = raw ++ rest ∧ Starts raw ∧ ReadsItems d vs raw

def MembersSound (d : Dialect) (fuel : Nat) : Prop := ∀ cs ms rest, members d fuel cs = some (ms,rest) →
  ∃ raw, cs = '"' :: raw ++ rest ∧ ReadsMembers d ms ('"' :: raw)

theorem value_sound_step (itemsSound : ItemsSound d fuel) (membersSound : MembersSound d fuel) :
    ValueSound d (fuel + 1) := by
  intro cs v rest got
  cases cs with
  | nil => cases got
  | cons c cs =>
    simp only [value] at got
    split at got
    · rename_i mark
      simp only [Option.map_eq_some_iff,Prod.mk.injEq] at got
      obtain ⟨⟨body,after⟩,read,rfl,rfl⟩ := got
      obtain ⟨raw,rfl,chars⟩ := scanString_sound read
      exact ⟨'"' :: raw,by rw [mark]; rfl,starts_of rfl rfl (by decide),reads_string chars⟩
    · split at got
      · rename_i array
        obtain ⟨w,shape,blank⟩ := skipWs_split cs
        split at got
        · rename_i after closed
          cases got
          refine ⟨'[' :: (w ++ [']']),?_,starts_of rfl rfl (by decide),reads_arr_nil blank⟩
          rw [array,shape,eat_some closed]
          simp
        · simp only [Option.map_eq_some_iff,Prod.mk.injEq] at got
          obtain ⟨⟨vs,after⟩,read,rfl,rfl⟩ := got
          obtain ⟨raw,same,starts,found⟩ := itemsSound _ _ _ read
          refine ⟨'[' :: (w ++ raw),?_,starts_of rfl rfl (by decide),reads_arr blank starts found⟩
          rw [array,shape,same]
          simp
      · split at got
        · rename_i object
          obtain ⟨w,shape,blank⟩ := skipWs_split cs
          split at got
          · rename_i after closed
            cases got
            refine ⟨'{' :: (w ++ ['}']),?_,starts_of rfl rfl (by decide),reads_obj_nil blank⟩
            rw [object,shape,eat_some closed]
            simp
          · simp only [Option.bind_eq_some_iff,Option.map_eq_some_iff,Prod.mk.injEq] at got
            obtain ⟨⟨ms,after⟩,read,built,build,rfl,rfl⟩ := got
            obtain ⟨raw,same,found⟩ := membersSound _ _ _ read
            refine ⟨'{' :: (w ++ '"' :: raw),?_,starts_of rfl rfl (by decide),reads_obj blank found build⟩
            rw [object,shape,same]
            simp
        · exact scalar_sound got

theorem items_sound_step (valueSound : ValueSound d fuel) (itemsSound : ItemsSound d fuel) :
    ItemsSound d (fuel + 1) := by
  intro cs vs rest got
  simp only [items,Option.bind_eq_some_iff] at got
  obtain ⟨⟨v,after⟩,read,got⟩ := got
  obtain ⟨raw,rfl,starts,first⟩ := valueSound _ _ _ read
  obtain ⟨w,shape,blank⟩ := skipWs_split after
  simp only at got
  split at got
  · rename_i last closed
    cases got
    refine ⟨raw ++ (w ++ [']']),?_,starts.append _,readsItems_last first blank⟩
    rw [shape,eat_some closed]
    simp
  · simp only [Option.bind_eq_some_iff,Option.map_eq_some_iff,Prod.mk.injEq] at got
    obtain ⟨next,comma,⟨later,last⟩,read',rfl,rfl⟩ := got
    obtain ⟨raws,same,starts',found⟩ := itemsSound _ _ _ read'
    obtain ⟨w',shape',blank'⟩ := skipWs_split next
    refine ⟨raw ++ (w ++ ',' :: (w' ++ raws)),?_,starts.append _,readsItems_more first blank blank' starts' found⟩
    rw [shape,eat_some comma,shape',same]
    simp

theorem members_sound_step (valueSound : ValueSound d fuel) (membersSound : MembersSound d fuel) :
    MembersSound d (fuel + 1) := by
  intro cs ms rest got
  simp only [members,Option.bind_eq_some_iff] at got
  obtain ⟨opened,mark,⟨body,after⟩,word,next,colon,⟨v,tail⟩,read,got⟩ := got
  obtain ⟨key,rfl,chars⟩ := scanString_sound word
  obtain ⟨w,shape,blank⟩ := skipWs_split after
  obtain ⟨w',shape',blank'⟩ := skipWs_split next
  obtain ⟨raw,same,starts,first⟩ := valueSound _ _ _ read
  obtain ⟨w'',shape'',blank''⟩ := skipWs_split tail
  have opened := eat_some mark
  have colon := eat_some colon
  simp only at got shape'' colon
  split at got
  · rename_i last closed
    cases got
    have found := readsMembers_last chars blank blank' starts first blank''
    refine ⟨key ++ (w ++ ':' :: (w' ++ (raw ++ (w'' ++ ['}'])))),?_,by simpa [memberText] using found⟩
    rw [opened,shape,colon,shape',same,shape'',eat_some closed]
    simp
  · simp only [Option.bind_eq_some_iff,Option.map_eq_some_iff,Prod.mk.injEq] at got
    obtain ⟨after'',comma,⟨later,last⟩,read',rfl,rfl⟩ := got
    obtain ⟨raws,same',rests⟩ := membersSound _ _ _ read'
    obtain ⟨w3,shape3,blank3⟩ := skipWs_split after''
    have found := readsMembers_more chars blank blank' starts first blank'' blank3 rests
    refine ⟨key ++ (w ++ ':' :: (w' ++ (raw ++ (w'' ++ ',' :: (w3 ++ '"' :: raws))))),?_,
      by simpa [memberText] using found⟩
    rw [opened,shape,colon,shape',same,shape'',eat_some comma,shape3,same']
    simp

-- Whatever the reader accepts, it accepts because of a piece of text that
-- reads the same before any other continuation.
theorem reader_sound (d : Dialect) (fuel : Nat) :
    ValueSound d fuel ∧ ItemsSound d fuel ∧ MembersSound d fuel := by
  induction fuel with
  | zero => refine ⟨?_,?_,?_⟩ <;> intro _ _ _ got <;> simp [value,items,members] at got
  | succ fuel ih =>
    obtain ⟨valueSound,itemsSound,membersSound⟩ := ih
    exact ⟨value_sound_step itemsSound membersSound,items_sound_step valueSound itemsSound,
      members_sound_step valueSound membersSound⟩

theorem loads_sound (got : loads d cs = some v) :
    ∃ w raw w', cs = w ++ (raw ++ w') ∧ Blank w ∧ Blank w' ∧ Starts raw ∧ Reads d v raw := by
  simp only [loads,Option.bind_eq_some_iff] at got
  obtain ⟨⟨found,after⟩,read,got⟩ := got
  simp only at got
  split at got
  · rename_i finished
    cases got
    obtain ⟨raw,same,starts,reads⟩ := (reader_sound d _).1 _ _ _ read
    obtain ⟨w,shape,blank⟩ := skipWs_split cs
    obtain ⟨w',shape',blank'⟩ := skipWs_split after
    rw [finished,List.append_nil] at shape'
    subst shape'
    exact ⟨w,raw,after,by rw [shape,same],blank,blank',starts,reads⟩
  · cases got

theorem skipWs_all (blank : Blank w) : skipWs w = [] := by
  have skipped := skipWs_blank blank []
  rw [List.append_nil] at skipped
  exact skipped

-- One piece of text that reads as a value, and what follows it.
theorem loads_reads (rest : List Char) (blank : Blank w) (starts : Starts raw) (reads : Reads d v raw)
    (stops : isNumber v = true → Stops rest) :
    loads d (w ++ (raw ++ rest)) = if skipWs rest = [] then some v else none := by
  have read := reads ((w ++ (raw ++ rest)).length + 1) rest (by simp only [List.length_append]; omega) stops
  rw [loads,skipWs_blank blank,skipWs_starts starts,read]
  rfl

theorem loads_text (d : Dialect) (formed : WellFormed v) (known : d.constants = true ∨ allFinite v = true)
    (blank : Blank w) : loads d (w ++ text v) = some v := by
  have whole := loads_reads [] blank (text_starts v) (reads_text d v formed known) (fun _ => stops_nil)
  simpa [skipWs] using whole

theorem obj_not_number (starts : ∃ cs, raw = '{' :: cs) (reads : Reads d v raw) : isNumber v = false := by
  obtain ⟨cs,rfl⟩ := starts
  have read := reads _ [] (Nat.le_refl _) (fun _ => stops_nil)
  simp only [List.append_nil,List.length_cons,value] at read
  simp only [show '{' ≠ '"' by decide,show '{' ≠ '[' by decide,if_false,if_true] at read
  split at read
  · cases read; rfl
  · simp only [Option.bind_eq_some_iff,Option.map_eq_some_iff,Prod.mk.injEq] at read
    obtain ⟨_,_,_,_,rfl,_⟩ := read
    rfl

-- An accepted object is not accepted with more than white space after it.
theorem loads_extra (got : loads d cs = some (.obj ms)) (solid : isWs c = false) :
    loads d (cs ++ c :: ys) = none := by
  obtain ⟨w,raw,w',rfl,blank,blank',starts,reads⟩ := loads_sound got
  have whole := loads_reads (w' ++ c :: ys) blank starts reads (fun number => by cases number)
  rw [List.append_assoc,List.append_assoc,whole,skipWs_blank blank',skipWs_solid solid]
  simp

theorem text_obj (ms : Members) : ∃ cs, text (.obj ms) = '{' :: cs := by
  cases ms with
  | nil => exact ⟨_,rfl⟩
  | cons m ms => exact ⟨_,rfl⟩

theorem cons_of_prefix (split : c :: cs = p ++ q) (nonempty : p ≠ []) : ∃ rest, p = c :: rest := by
  cases p with
  | nil => exact (nonempty rfl).elim
  | cons e rest =>
    simp only [List.cons_append,List.cons.injEq] at split
    exact ⟨rest,by rw [split.1]⟩

-- The text of an object is not accepted with its end cut off.
theorem loads_cut_known (d : Dialect) (formed : WellFormed (.obj ms))
    (known : d.constants = true ∨ allFinite (.obj ms) = true) (split : text (.obj ms) = p ++ q) (cut : q ≠ [])
    (nonempty : p ≠ []) (blank : Blank w) : loads d (w ++ p) = none := by
  rw [←Option.not_isSome_iff_eq_none]
  intro accepted
  obtain ⟨v,got⟩ := Option.isSome_iff_exists.mp accepted
  obtain ⟨w1,raw,w',same,blank1,blank',starts,reads⟩ := loads_sound got
  obtain ⟨cs,shape⟩ := text_obj ms
  obtain ⟨rest,opened⟩ := cons_of_prefix (shape ▸ split) nonempty
  have first : skipWs (w ++ p) = p := by rw [skipWs_blank blank,opened]; exact skipWs_solid rfl _
  have second : skipWs (w ++ p) = raw ++ w' := by rw [same,skipWs_blank blank1,skipWs_starts starts]
  have piece : p = raw ++ w' := first.symm.trans second
  obtain ⟨c,more,head,_,_⟩ := starts
  have brace : c = '{' := by
    rw [opened,head,List.cons_append] at piece
    exact (List.cons.inj piece).1.symm
  have number := obj_not_number ⟨more,by rw [head,brace]⟩ reads
  have whole := reads (text (.obj ms)).length (w' ++ q) (by rw [split,piece]; simp)
    (fun impossible => by rw [number] at impossible; cases impossible)
  have exact := reads_text d (.obj ms) formed known (text (.obj ms)).length [] (Nat.le_refl _) (fun _ => stops_nil)
  rw [List.append_nil] at exact
  rw [←List.append_assoc,←piece,←split,exact] at whole
  simp only [Option.some.injEq,Prod.mk.injEq] at whole
  exact cut (List.append_eq_nil_iff.mp whole.2.symm).2

end Json
