import IntentEngineering.Capture.Cursors
import IntentEngineering.Library.TextLength

open Schema

def cursorMaxBytes : Nat := 65536

def etagMaxLength : Nat := 256

def endpoints : List String := ["issues","pull_requests","commits","issue_comments","review_comments"]

def isAsciiAlphanumeric (c : Char) : Bool := c.isUpper || c.isLower || c.isDigit

-- `_OWNER`
def isOwner (cs : List Char) : Bool :=
  decide (1 ≤ cs.length) && decide (cs.length ≤ 39) && cs.all (fun c => isAsciiAlphanumeric c || c == '-') &&
    cs.head? != some '-' && cs.getLast? != some '-' && !decide (['-','-'] <:+: cs)

-- `_REPOSITORY`
def isRepository : List Char → Bool
  | [] => false
  | first :: rest => isAsciiAlphanumeric first && decide (rest.length ≤ 99) &&
      rest.all fun c => isAsciiAlphanumeric c || decide (c ∈ ['.','_','-'])

-- `_canonical_repository`; what the two patterns admit is ASCII, so that lower
-- case is the absence of a capital letter.
def canonicalRepository (value : String) : Bool :=
  let owner := value.toList.takeWhile (· != '/')
  let after := value.toList.dropWhile (· != '/')
  !after.isEmpty && !decide ('/' ∈ after.drop 1) && isOwner owner && isRepository (after.drop 1) && value.toList.all fun c => !c.isUpper

-- `_SHA`
def isSha (value : String) : Bool := value.toList.length == 40 && value.toList.all PyText.isHex

def validEtag (value : String) : Bool :=
  decide (0 < value.toList.length) && decide (value.toList.length ≤ etagMaxLength) &&
    value.toList.all fun c => decide (0x20 ≤ c.toNat) && decide (c.toNat < 0x7f)

-- `_validate_etags`
def validateEtags (value : Named String) : Bool :=
  value.keys.all (fun key => decide (key ∈ endpoints)) && value.1.all fun entry => validEtag entry.2

structure GitHubCheckpoint where
  repository : {value : String // canonicalRepository value = true}
  etags : {value : Named String // validateEtags value = true}
  newestUpdatedAt : Option UtcTime
  newestCommitSha : Option {value : String // isSha value = true}

namespace GitHubCheckpoint

-- `_validate_updated_at` of a text, where the shift to UTC does not overflow.
def updatedAt (env : Interpreter) (value : String) : Option UtcTime :=
  (env.fromisoformat value.toList).bind fun read => read.offset.bind fun east => Moment.astimezone read.shown east

def timeCodec (env : Interpreter) : Codec UtcTime where
  dump t := .str (String.ofList t.1.text)
  load | .str value => updatedAt env value | _ => none
  exact t := by simp [updatedAt,env.reads,Moment.ofUtc,Moment.astimezone_zero]
  formed _ := trivial

instance (env : Interpreter) : (timeCodec env).Finite := ⟨fun _ => rfl⟩

theorem validateEtags_empty : validateEtags ⟨[],Named.unlisted⟩ = true := rfl

def fields (env : Interpreter) :=
  Fields.defaulted "cursor_schema_version" (Codec.int.only 1) () <|
  Fields.defaulted "etags" ((Named.codec Codec.string).checked validateEtags) ⟨⟨[],Named.unlisted⟩,validateEtags_empty⟩ <|
  Fields.defaulted "newest_commit_sha" ((Codec.string.checked isSha).nullable nofun) none <|
  Fields.defaulted "newest_updated_at" ((timeCodec env).nullable nofun) none <|
  Fields.required "repository" (Codec.string.checked canonicalRepository) <|
  Fields.nil

-- `model_validate`
def codec (env : Interpreter) : Codec GitHubCheckpoint :=
  (Codec.object (fields env)).convert
    (fun (_,etags,newestCommitSha,newestUpdatedAt,repository,_) => some ⟨repository,etags,newestUpdatedAt,newestCommitSha⟩)
    (fun c => ((),c.etags,c.newestCommitSha,c.newestUpdatedAt,c.repository,()))
    (fun _ => rfl)

instance (env : Interpreter) : (fields env).Finite := by unfold fields; infer_instance

instance (env : Interpreter) : (codec env).Finite := inferInstanceAs (Codec.convert ..).Finite

def members (c : GitHubCheckpoint) : Json.Members :=
  [("cursor_schema_version",.int 1),
    ("etags",c.etags.1.dump .str),
    ("newest_commit_sha",match c.newestCommitSha with | none => .null | some sha => .str sha.1),
    ("newest_updated_at",match c.newestUpdatedAt with | none => .null | some t => .str (String.ofList t.1.text)),
    ("repository",.str c.repository.1)]

def payload (c : GitHubCheckpoint) : Json := .obj c.members

def encode (c : GitHubCheckpoint) : List Char := c.payload.text

def checkpointError : DecodeFailure := .fixed "invalid GitHub checkpoint"

-- The validator of `newest_updated_at` runs whatever the other fields hold, and
-- `OverflowError` is none of the exceptions that the model or the decoder takes.
def overflows (env : Interpreter) (payload : Json.Members) : Bool :=
  match payload.lookup "newest_updated_at" with
  | some (.str value) => match env.fromisoformat value.toList with
    | some read => read.offset.any fun east => (Moment.astimezone read.shown east).isNone
    | none => false
  | _ => false

def decode (env : Interpreter) (value : CodePoints) (expectedRepository : String) : Except DecodeFailure GitHubCheckpoint :=
  match value.chars with
  | none => .error checkpointError
  | some cs =>
    if cursorMaxBytes < (Utf8.encode cs).length then .error checkpointError
    else if env.exhausts cs then .error .recursionError
    else match Json.loads Json.strictDialect cs with
      | some (.obj payload) =>
        if overflows env payload then .error .overflowError
        else match (codec env).load (.obj payload) with
          | some checkpoint =>
            if checkpoint.repository.1 ≠ expectedRepository ∨ checkpoint.encode ≠ cs then .error checkpointError
            else .ok checkpoint
          | none => .error checkpointError
      | _ => .error checkpointError

theorem dump_payload (env : Interpreter) (c : GitHubCheckpoint) : (codec env).dump c = c.payload := by
  obtain ⟨repository,etags,newestUpdatedAt,newestCommitSha⟩ := c
  cases newestUpdatedAt <;> cases newestCommitSha <;> rfl

theorem loads_encode (env : Interpreter) (c : GitHubCheckpoint) : Json.loads Json.strictDialect c.encode = some c.payload := by
  rw [encode,←dump_payload env c]
  exact (codec env).loads_dump _ c

theorem payload_depth (c : GitHubCheckpoint) : c.payload.depth ≤ 2 := by
  have etags := Named.depth_scalars Json.str (fun _ => rfl) c.etags.1.1
  obtain ⟨repository,etags',newestUpdatedAt,newestCommitSha⟩ := c
  cases newestUpdatedAt <;> cases newestCommitSha <;>
    simp [payload,members,Json.depth,Json.depthMembers,Named.dump,etags]

-- An endpoint has one tag, each bounded: the cursor of a valid checkpoint is small.
theorem etags_length (c : GitHubCheckpoint) : (c.etags.1.dump Json.str).text.length ≤ 8202 := by
  obtain ⟨keys,values⟩ := Bool.and_eq_true_iff.mp c.etags.2
  simp only [List.all_eq_true,decide_eq_true_eq] at keys values
  have few : c.etags.1.1.length ≤ 5 := by
    have apart : c.etags.1.keys.Nodup := c.etags.1.2.imp fun less => less.ne
    have inside := (apart.subperm keys).length_le
    simpa [Named.keys,endpoints] using inside
  have short : ∀ key ∈ endpoints, key.toList.length ≤ 15 := by decide
  have each : ∀ m ∈ c.etags.1.1.map (fun entry => (entry.1,Json.str entry.2)),
      (Json.stringText m.1).length + m.2.text.length + 2 ≤ 1640 := by
    intro m member
    obtain ⟨entry,present,rfl⟩ := List.mem_map.mp member
    have key := short entry.1 (keys _ (List.mem_map_of_mem present))
    have valid := values entry present
    simp only [validEtag,Bool.and_eq_true,decide_eq_true_eq] at valid
    have bounded : entry.2.toList.length ≤ 256 := valid.1.2
    have first := Json.stringText_length entry.1
    have second := Json.text_str_length entry.2
    dsimp only
    omega
  have body := Json.membersText_length each
  have whole := Json.text_obj_length (c.etags.1.1.map fun entry => (entry.1,Json.str entry.2))
  rw [List.length_map] at body
  simp only [Named.dump]
  omega

theorem repository_length {value : String} (canonical : canonicalRepository value = true) : value.toList.length ≤ 140 := by
  simp only [canonicalRepository,Bool.and_eq_true] at canonical
  obtain ⟨⟨⟨_,owner⟩,repository⟩,_⟩ := canonical
  have first : (value.toList.takeWhile (· != '/')).length ≤ 39 := by
    simp only [isOwner,Bool.and_eq_true,decide_eq_true_eq] at owner
    exact owner.1.1.1.1.2
  have second : ((value.toList.dropWhile (· != '/')).drop 1).length ≤ 100 := by
    cases after : (value.toList.dropWhile (· != '/')).drop 1 with
    | nil => simp
    | cons c cs =>
      rw [after] at repository
      simp only [isRepository,Bool.and_eq_true,decide_eq_true_eq] at repository
      rw [List.length_cons]
      omega
  have whole := congrArg List.length (List.takeWhile_append_dropWhile (p := (· != '/')) (l := value.toList))
  rw [List.length_append] at whole
  rw [List.length_drop] at second
  omega

theorem encode_length (c : GitHubCheckpoint) : (Utf8.encode c.encode).length ≤ cursorMaxBytes := by
  have repository := Json.text_str_length c.repository.1
  have repository' := repository_length c.repository.2
  have etags := etags_length c
  have sha : (match c.newestCommitSha with | none => Json.null | some sha => .str sha.1).text.length ≤ 242 := by
    cases c.newestCommitSha with
    | none => decide
    | some sha =>
      have size := sha.2
      simp only [isSha,Bool.and_eq_true,beq_iff_eq] at size
      have text := Json.text_str_length sha.1
      dsimp only
      omega
  have updated : (match c.newestUpdatedAt with | none => Json.null | some t => .str (String.ofList t.1.text)).text.length ≤ 194 := by
    cases c.newestUpdatedAt with
    | none => decide
    | some t =>
      have text := Json.text_str_length (String.ofList t.1.text)
      have size := t.1.text_length
      rw [String.toList_ofList] at text
      dsimp only
      omega
  have keys : (Json.stringText "cursor_schema_version").length = 23 ∧ (Json.stringText "etags").length = 7 ∧
      (Json.stringText "newest_commit_sha").length = 19 ∧ (Json.stringText "newest_updated_at").length = 19 ∧
      (Json.stringText "repository").length = 12 ∧ (Json.text (.int 1)).length = 1 := by decide
  have bytes := Utf8.encode_length c.encode
  have size : c.encode.length ≤ 16384 := by
    simp only [encode,payload,members,Json.text,Json.membersText,List.length_cons,List.length_append,List.length_nil] at *
    omega
  simp only [cursorMaxBytes]
  omega

theorem members_calm (env : Interpreter) (c : GitHubCheckpoint) : overflows env c.members = false := by
  have found : c.members.lookup "newest_updated_at" =
      some (match c.newestUpdatedAt with | none => Json.null | some t => .str (String.ofList t.1.text)) := rfl
  simp only [overflows,found]
  cases c.newestUpdatedAt with
  | none => rfl
  | some t => simp [env.reads,Moment.ofUtc,Moment.astimezone_zero]

theorem decode_encode (env : Interpreter) (c : GitHubCheckpoint) :
    decode env (.ofChars c.encode) c.repository.1 = .ok c := by
  have small : ¬cursorMaxBytes < (Utf8.encode c.encode).length := Nat.not_lt.mpr c.encode_length
  have shallow : env.exhausts c.encode = false := env.shallow c.payload c.payload_depth
  have read : (codec env).load (.obj c.members) = some c := by
    have exact := (codec env).exact c
    rwa [dump_payload] at exact
  simp [decode,CodePoints.chars_ofChars,small,shallow,loads_encode env c,payload,members_calm,read]

-- The texts on which the scanner runs out of stack.
def Exhausted (env : Interpreter) (value : CodePoints) : Prop :=
  ∃ cs, value.chars = some cs ∧ (Utf8.encode cs).length ≤ cursorMaxBytes ∧ env.exhausts cs = true

-- The texts whose time is outside the calendar once it is kept in UTC.
def Shifted (env : Interpreter) (value : CodePoints) : Prop :=
  ∃ cs payload text read east, value.chars = some cs ∧ (Utf8.encode cs).length ≤ cursorMaxBytes ∧
    Json.loads Json.strictDialect cs = some (.obj payload) ∧ payload.lookup "newest_updated_at" = some (.str text) ∧
    env.fromisoformat text.toList = some read ∧ read.offset = some east ∧ ¬UtcTime.Dated (read.shown.1.instant - east)

theorem overflows_iff (env : Interpreter) (payload : Json.Members) :
    overflows env payload = true ↔ ∃ text read east, payload.lookup "newest_updated_at" = some (.str text) ∧
      env.fromisoformat text.toList = some read ∧ read.offset = some east ∧ ¬UtcTime.Dated (read.shown.1.instant - east) := by
  unfold overflows
  constructor
  · intro raised
    split at raised
    · rename_i text found
      split at raised
      · rename_i read shown
        obtain ⟨east,offset,none⟩ := (Option.any_eq_true ..).mp raised
        have outside := (Moment.astimezone_none (read.within east offset)).mp (Option.isNone_iff_eq_none.mp none)
        exact ⟨text,read,east,found,shown,offset,outside⟩
      · cases raised
    · cases raised
  · rintro ⟨text,read,east,found,shown,offset,outside⟩
    have none := (Moment.astimezone_none (read.within east offset)).mpr outside
    simp [found,shown,offset,none]

theorem decode_sound (read : decode env value expected = .ok c) :
    CodePoints.ofChars c.encode = value ∧ c.repository.1 = expected := by
  unfold decode at read
  split at read
  · cases read
  · rename_i cs chars
    split at read
    · cases read
    · split at read
      · cases read
      · split at read
        · split at read
          · cases read
          · split at read
            · split at read
              · cases read
              · rename_i same
                cases read
                simp only [ne_eq,not_or,Decidable.not_not] at same
                exact ⟨by rw [same.2]; exact CodePoints.ofChars_chars chars,same.1⟩
            · cases read
        · cases read

-- What is neither too deep nor shifted out of the calendar fails with the one
-- error of the connector, whatever else is wrong with it.
theorem decode_raises (env : Interpreter) (value : CodePoints) (expected : String) :
    (∀ e, decode env value expected = .error e → e = checkpointError) ↔ ¬Exhausted env value ∧ ¬Shifted env value := by
  cases chars : value.chars with
  | none =>
    have raised : decode env value expected = .error checkpointError := by simp [decode,chars]
    simp [raised,Exhausted,Shifted,chars]
  | some cs =>
    by_cases large : cursorMaxBytes < (Utf8.encode cs).length
    · have raised : decode env value expected = .error checkpointError := by simp [decode,chars,large]
      simp [raised,Exhausted,Shifted,chars,Nat.not_le.mpr large]
    · have small := Nat.not_lt.mp large
      cases deep : env.exhausts cs with
      | true =>
        have raised : decode env value expected = .error .recursionError := by simp [decode,chars,large,deep]
        have exhausted : Exhausted env value := ⟨cs,chars,small,deep⟩
        simp [raised,exhausted,checkpointError]
      | false =>
        have fits : ¬Exhausted env value := by
          rintro ⟨cs',chars',_,deep'⟩
          rw [chars] at chars'
          cases chars'
          rw [deep] at deep'
          cases deep'
        have shifted : Shifted env value ↔ ∃ payload, Json.loads Json.strictDialect cs = some (.obj payload) ∧ overflows env payload = true := by
          constructor
          · rintro ⟨cs',payload,text,read,east,chars',_,loaded,rest⟩
            rw [chars] at chars'
            cases chars'
            exact ⟨payload,loaded,(overflows_iff env payload).mpr ⟨text,read,east,rest⟩⟩
          · rintro ⟨payload,loaded,raised⟩
            obtain ⟨text,read,east,rest⟩ := (overflows_iff env payload).mp raised
            exact ⟨cs,payload,text,read,east,chars,small,loaded,rest⟩
        simp only [fits,not_false_eq_true,true_and,shifted,decode,chars,large,if_false,deep,Bool.false_eq_true]
        cases loaded : Json.loads Json.strictDialect cs with
        | none => simp
        | some v =>
          cases v with
          | obj payload =>
            cases raised : overflows env payload with
            | true => simp [raised,checkpointError]
            | false =>
              cases read : (codec env).load (.obj payload) with
              | none => simp [raised,read]
              | some checkpoint =>
                by_cases foreign : checkpoint.repository.1 ≠ expected ∨ checkpoint.encode ≠ cs
                · simp only [read,foreign,if_true]
                  simp [raised]
                · simp only [read,foreign,if_false]
                  simp [raised]
          | _ => simp

end GitHubCheckpoint
