import IntentEngineering.Capture.Cursors

open Schema

def maxObjects : Nat := 10000

def maxCursorBytes : Nat := 1048576

def maxProviderCursorBytes : Nat := 65536

-- Longer integers have no text: `str` of one raises `ValueError`.
def maxStrDigits : Nat := 4300

-- `_cursor_value` of a text or an integer.
def cursorValue : String ⊕ Nat → Bool
  | .inl text => !text.toList.isEmpty && decide ((Utf8.encode text.toList).length ≤ maxProviderCursorBytes)
  | .inr n => decide ((Decimal.natText n).length ≤ maxStrDigits) && decide ((Decimal.natText n).length ≤ maxProviderCursorBytes)

-- `freeze_versions`
def freezeVersions (value : Named String) : Bool :=
  decide (value.1.length ≤ maxObjects) && value.1.all fun entry => PyText.hasText entry.1 && PyText.hasText entry.2

abbrev RequiredText := {value : String // PyText.hasText value = true}

abbrev CheckpointHash := {value : String // isHash value = true}

structure McpCheckpoint where
  connectorId : RequiredText
  profileId : RequiredText
  profileVersion : RequiredText
  objectType : RequiredText
  scopeHash : CheckpointHash
  sourceHash : CheckpointHash
  providerCursor : Option {value : String ⊕ Nat // cursorValue value = true}
  observedVersions : {value : Named String // freezeVersions value = true}

-- What a connector's own cursors name.
structure McpScope where
  connectorId : String
  profileId : String
  profileVersion : String
  objectName : String
  scopeHash : String
  sourceHash : String

namespace McpCheckpoint

def requiredText : Codec RequiredText := Codec.string.checked PyText.hasText

def checkpointHash : Codec CheckpointHash := Codec.string.checked isHash

theorem integer_apart (n : Nat) : Codec.string.load (Codec.int.natural.dump n) = none := rfl

def providerCursorCodec : Codec {value : String ⊕ Nat // cursorValue value = true} :=
  (Codec.string.either Codec.int.natural integer_apart).checked cursorValue

theorem providerCursor_solid (cursor : {value : String ⊕ Nat // cursorValue value = true}) : providerCursorCodec.dump cursor ≠ .null := by
  obtain ⟨value,_⟩ := cursor
  cases value <;> exact nofun

theorem freezeVersions_empty : freezeVersions ⟨[],Named.unlisted⟩ = true := rfl

def fields :=
  Fields.required "connector_id" requiredText <|
  Fields.defaulted "cursor_schema_version" (Codec.int.only 1) () <|
  Fields.required "object_type" requiredText <|
  Fields.defaulted "observed_versions" ((Named.codec Codec.string).checked freezeVersions) ⟨⟨[],Named.unlisted⟩,freezeVersions_empty⟩ <|
  Fields.required "profile_id" requiredText <|
  Fields.required "profile_version" requiredText <|
  Fields.defaulted "provider_cursor" (providerCursorCodec.nullable providerCursor_solid) none <|
  Fields.required "scope_hash" checkpointHash <|
  Fields.required "source_hash" checkpointHash <|
  Fields.nil

-- `model_validate` and `model_dump(mode="json")`
def codec : Codec McpCheckpoint :=
  (Codec.object fields).convert
    (fun (connectorId,_,objectType,observedVersions,profileId,profileVersion,providerCursor,scopeHash,sourceHash,_) =>
      some ⟨connectorId,profileId,profileVersion,objectType,scopeHash,sourceHash,providerCursor,observedVersions⟩)
    (fun c => (c.connectorId,(),c.objectType,c.observedVersions,c.profileId,c.profileVersion,c.providerCursor,c.scopeHash,
      c.sourceHash,()))
    (fun _ => rfl)

instance : requiredText.Finite := inferInstanceAs (Codec.checked ..).Finite
instance : checkpointHash.Finite := inferInstanceAs (Codec.checked ..).Finite
instance : providerCursorCodec.Finite where
  finite
    | ⟨.inl _,_⟩ => rfl
    | ⟨.inr _,_⟩ => rfl

instance : fields.Finite := by unfold fields; infer_instance
instance : codec.Finite := inferInstanceAs (Codec.convert ..).Finite

def text (c : McpCheckpoint) : List Char := (codec.dump c).text

-- `none` where it raises "MCP checkpoint is too large".
def encode (c : McpCheckpoint) : Option (List Char) :=
  if maxCursorBytes < (Utf8.encode c.text).length then none else some c.text

inductive DecodeResult where
  | ok (checkpoint : McpCheckpoint)
  | invalid
  | noncanonical
  | scope

-- `_decode_checkpoint_result`. The text is encoded before the `try`, which takes
-- `TypeError` and `ValueError` only.
def decodeCheckpointResult (env : Interpreter) (value : CodePoints) : Except DecodeFailure DecodeResult :=
  if value = [] then .ok .invalid
  else match value.chars with
    | none => .error .unicodeEncodeError
    | some cs =>
      if maxCursorBytes < (Utf8.encode cs).length then .ok .invalid
      else if env.exhausts cs then .error .recursionError
      else match Json.loads Json.strictDialect cs with
        | some (.obj payload) => match codec.load (.obj payload) with
          | some decoded => match decoded.encode with
            | some again => if again ≠ cs then .ok .noncanonical else .ok (.ok decoded)
            | none => .ok .invalid
          | none => .ok .invalid
        | _ => .ok .invalid

def inScope (decoded : McpCheckpoint) (connector : McpScope) : Bool :=
  decoded.connectorId.1 == connector.connectorId && decoded.profileId.1 == connector.profileId &&
    decoded.profileVersion.1 == connector.profileVersion && decoded.objectType.1 == connector.objectName &&
    decoded.scopeHash.1 == connector.scopeHash && decoded.sourceHash.1 == connector.sourceHash &&
    decoded.observedVersions.1.keys.all fun objectId => (connector.profileId ++ ":").toList.isPrefixOf objectId.toList

-- `_decode_scoped_checkpoint_result`
def decodeScopedCheckpointResult (env : Interpreter) (value : CodePoints) (connector : McpScope) : Except DecodeFailure DecodeResult :=
  (decodeCheckpointResult env value).map fun result => match result with
    | .ok decoded => if decoded.inScope connector then .ok decoded else .scope
    | other => other

def report : DecodeResult → Except DecodeFailure McpCheckpoint
  | .ok decoded => .ok decoded
  | .noncanonical => .error (.fixed "noncanonical MCP checkpoint")
  | .invalid => .error (.fixed "invalid MCP checkpoint")
  | .scope => .error (.fixed "MCP checkpoint scope mismatch")

def decode (env : Interpreter) (value : CodePoints) (connector : McpScope) : Except DecodeFailure McpCheckpoint :=
  (decodeScopedCheckpointResult env value connector).bind report

def decodeUnscoped (env : Interpreter) (value : CodePoints) : Except DecodeFailure McpCheckpoint :=
  (decodeCheckpointResult env value).bind report

theorem depth_providerCursor (cursor : Option {value : String ⊕ Nat // cursorValue value = true}) :
    ((providerCursorCodec.nullable providerCursor_solid).dump cursor).depth = 0 := by
  rcases cursor with _ | ⟨_ | _,_⟩ <;> rfl

theorem dump_depth (c : McpCheckpoint) : (codec.dump c).depth ≤ 2 := by
  have versions := Named.depth_scalars Json.str (fun _ => rfl) c.observedVersions.1.1
  have cursor := depth_providerCursor c.providerCursor
  have members : (codec.dump c).depth =
      Json.depthMembers
        [("connector_id",.str c.connectorId.1),("cursor_schema_version",.int 1),("object_type",.str c.objectType.1),
          ("observed_versions",c.observedVersions.1.dump .str),("profile_id",.str c.profileId.1),
          ("profile_version",.str c.profileVersion.1),
          ("provider_cursor",(providerCursorCodec.nullable providerCursor_solid).dump c.providerCursor),
          ("scope_hash",.str c.scopeHash.1),("source_hash",.str c.sourceHash.1)] + 1 := rfl
  rw [members]
  simp [Json.depthMembers,Json.depth,Named.dump,versions,cursor]

theorem encode_some (c : McpCheckpoint) (encoded : c.encode = some cs) : cs = c.text ∧ (Utf8.encode cs).length ≤ maxCursorBytes := by
  unfold encode at encoded
  split at encoded
  · cases encoded
  · rename_i small
    cases encoded
    exact ⟨rfl,Nat.not_lt.mp small⟩

theorem decodeCheckpointResult_encode (env : Interpreter) (c : McpCheckpoint) (encoded : c.encode = some cs) :
    decodeCheckpointResult env (.ofChars cs) = .ok (.ok c) := by
  obtain ⟨rfl,small⟩ := c.encode_some encoded
  have shallow : env.exhausts c.text = false := env.shallow _ c.dump_depth
  have loaded : Json.loads Json.strictDialect c.text = some (codec.dump c) := codec.loads_dump _ c
  obtain ⟨payload,dumped⟩ : ∃ payload, codec.dump c = .obj payload := ⟨_,rfl⟩
  have read := codec.exact c
  have solid : CodePoints.ofChars c.text ≠ [] := by
    obtain ⟨rest,opened⟩ := Json.text_obj payload
    rw [text,dumped,opened]
    exact nofun
  rw [dumped] at loaded read
  simp only [decodeCheckpointResult,solid,if_false,CodePoints.chars_ofChars,Nat.not_lt.mpr small,shallow,Bool.false_eq_true,loaded,read,
    encoded,ne_eq,not_true_eq_false]

theorem decodeCheckpointResult_ok (read : decodeCheckpointResult env value = .ok (.ok c)) :
    ∃ cs, c.encode = some cs ∧ CodePoints.ofChars cs = value := by
  unfold decodeCheckpointResult at read
  split at read
  · cases read
  · split at read
    · cases read
    · rename_i cs chars
      split at read
      · cases read
      · split at read
        · cases read
        · split at read
          · split at read
            · split at read
              · rename_i again encoded
                split at read
                · cases read
                · rename_i same
                  cases read
                  rw [Decidable.not_not] at same
                  exact ⟨cs,by rw [encoded,same],CodePoints.ofChars_chars chars⟩
              · cases read
            · cases read
          · cases read

-- The texts on which the scanner runs out of stack.
def Exhausted (env : Interpreter) (value : CodePoints) : Prop :=
  ∃ cs, value.chars = some cs ∧ value ≠ [] ∧ (Utf8.encode cs).length ≤ maxCursorBytes ∧ env.exhausts cs = true

-- Apart from a lone surrogate and a text that is nested too deeply, every text
-- has a result.
theorem decodeCheckpointResult_raises (env : Interpreter) (value : CodePoints) :
    (∃ result, decodeCheckpointResult env value = .ok result) ↔ value.chars ≠ none ∧ ¬Exhausted env value := by
  by_cases empty : value = []
  · simp [decodeCheckpointResult,empty,CodePoints.chars,Exhausted]
  · cases chars : value.chars with
    | none => simp [decodeCheckpointResult,empty,chars]
    | some cs =>
      by_cases large : maxCursorBytes < (Utf8.encode cs).length
      · simp [decodeCheckpointResult,empty,chars,large,Exhausted,Nat.not_le.mpr large]
      · have small := Nat.not_lt.mp large
        cases deep : env.exhausts cs with
        | true =>
          have exhausted : Exhausted env value := ⟨cs,chars,empty,small,deep⟩
          simp [decodeCheckpointResult,empty,chars,large,deep,exhausted]
        | false =>
          have fits : ¬Exhausted env value := by
            rintro ⟨cs',chars',_,_,deep'⟩
            rw [chars] at chars'
            cases chars'
            rw [deep] at deep'
            cases deep'
          simp only [decodeCheckpointResult,empty,if_false,chars,large,deep,Bool.false_eq_true,fits,not_false_eq_true,and_true,ne_eq,
            reduceCtorEq,iff_true]
          repeat' split
          all_goals exact ⟨_,rfl⟩

def checkpointErrors : List DecodeFailure :=
  [.fixed "noncanonical MCP checkpoint",.fixed "invalid MCP checkpoint",.fixed "MCP checkpoint scope mismatch"]

theorem report_fixed (result : DecodeResult) (raised : report result = .error e) : e ∈ checkpointErrors := by
  cases result <;> cases raised <;> simp [checkpointErrors]

theorem decodeCheckpointResult_error (raised : decodeCheckpointResult env value = .error e) : e ∉ checkpointErrors := by
  unfold decodeCheckpointResult at raised
  repeat' split at raised
  all_goals cases raised
  all_goals simp [checkpointErrors]

theorem decodeUnscoped_raises (env : Interpreter) (value : CodePoints) :
    (∀ e, decodeUnscoped env value = .error e → e ∈ checkpointErrors) ↔ value.chars ≠ none ∧ ¬Exhausted env value := by
  rw [←decodeCheckpointResult_raises,decodeUnscoped]
  cases read : decodeCheckpointResult env value with
  | ok result => simpa [Except.bind] using fun e => report_fixed result
  | error e => simpa [Except.bind] using decodeCheckpointResult_error read

theorem decode_raises (env : Interpreter) (value : CodePoints) (connector : McpScope) :
    (∀ e, decode env value connector = .error e → e ∈ checkpointErrors) ↔ value.chars ≠ none ∧ ¬Exhausted env value := by
  rw [←decodeCheckpointResult_raises,decode,decodeScopedCheckpointResult]
  cases read : decodeCheckpointResult env value with
  | ok result => simpa [Except.bind,Except.map] using fun e => report_fixed _
  | error e => simpa [Except.bind,Except.map] using decodeCheckpointResult_error read

theorem decodeUnscoped_ok : decodeUnscoped env value = .ok c ↔ decodeCheckpointResult env value = .ok (.ok c) := by
  unfold decodeUnscoped
  cases read : decodeCheckpointResult env value with
  | error e => simp [Except.bind]
  | ok result => cases result <;> simp [Except.bind,report]

theorem decode_ok : decode env value connector = .ok c ↔ decodeUnscoped env value = .ok c ∧ c.inScope connector = true := by
  rw [decodeUnscoped_ok,decode,decodeScopedCheckpointResult]
  cases read : decodeCheckpointResult env value with
  | error e => simp [Except.bind,Except.map]
  | ok result =>
    cases result with
    | ok decoded =>
      cases inside : decoded.inScope connector with
      | false =>
        simp only [Except.map,inside,Bool.false_eq_true,if_false,Except.bind,report,reduceCtorEq,Except.ok.injEq,DecodeResult.ok.injEq,
          false_iff,not_and]
        rintro rfl
        simp [inside]
      | true =>
        simp only [Except.map,inside,if_true,Except.bind,report,Except.ok.injEq,DecodeResult.ok.injEq]
        constructor
        · rintro rfl
          exact ⟨rfl,inside⟩
        · exact And.left
    | _ => simp [Except.bind,Except.map,report]

end McpCheckpoint
