import IntentEngineering.Capture.GitHubCheckpoint
import IntentEngineering.Capture.McpCheckpoint

-- What one codec promises about a checkpoint it writes and a text it is given.
def GitHubCheckpoint.Exact (env : Interpreter) (c : GitHubCheckpoint) (value : CodePoints) (expected : String) : Prop :=
  decode env (.ofChars c.encode) c.repository.1 = .ok c ∧
  (∀ read, decode env value expected = .ok read → CodePoints.ofChars read.encode = value) ∧
  ∀ e, decode env value expected = .error e → e = checkpointError

-- A checkpoint over the size limit has no text. The two decoders differ in
-- whether a foreign checkpoint is refused.
def McpCheckpoint.Exact (env : Interpreter) (c : McpCheckpoint) (value : CodePoints) (connector : McpScope) : Prop :=
  (∀ cs, c.encode = some cs → decodeUnscoped env (.ofChars cs) = .ok c ∧
    (decode env (.ofChars cs) connector = .ok c ↔ c.inScope connector = true)) ∧
  (∀ read, decodeUnscoped env value = .ok read → ∃ cs, read.encode = some cs ∧ CodePoints.ofChars cs = value) ∧
  (∀ read, decode env value connector = .ok read → ∃ cs, read.encode = some cs ∧ CodePoints.ofChars cs = value) ∧
  (∀ e, decodeUnscoped env value = .error e → e ∈ checkpointErrors) ∧
  ∀ e, decode env value connector = .error e → e ∈ checkpointErrors

theorem utc_valid (t : DateTime) : DateTime.Valid t.year t.month t.day t.hour t.minute t.second t.microsecond (some 0) :=
  { t.valid with zone := fun minutes zero => by cases zero; decide }

theorem offset_within (t : DateTime) :
    ∀ east ∈ t.offset.map (fun minutes : Int => minutes * 60000000), -DateTime.dayLength < east ∧ east < DateTime.dayLength := by
  intro east shifted
  obtain ⟨minutes,offset,rfl⟩ := Option.mem_map.mp shifted
  have inside := t.valid.zone minutes offset
  simp only [DateTime.dayLength]
  omega

-- An interpreter that knows the extended spelling of a time, in whole minutes east.
def Moment.ofDateTime (t : DateTime) : Moment where
  shown := ⟨⟨t.year,t.month,t.day,t.hour,t.minute,t.second,t.microsecond,some 0,utc_valid t⟩,rfl⟩
  offset := t.offset.map fun minutes => minutes * 60000000
  within := offset_within t

theorem Moment.ofDateTime_utc (t : UtcTime) : Moment.ofDateTime t.1 = .ofUtc t := by
  obtain ⟨⟨year,month,day,hour,minute,second,microsecond,offset,valid⟩,utc⟩ := t
  cases utc
  rfl

def extendedInterpreter : Interpreter where
  exhausts _ := false
  fromisoformat cs := (DateTime.read cs).map Moment.ofDateTime
  shallow _ _ := rfl
  reads t := by simp [DateTime.read_text,Moment.ofDateTime_utc]

theorem firstHour_valid : DateTime.Valid 1 1 1 0 0 0 0 (some 60) := by decide

-- Midnight of the first day there is, an hour east of UTC.
def firstHour : DateTime := ⟨1,1,1,0,0,0,0,some 60,firstHour_valid⟩

def firstCursor : Json := .obj [("newest_updated_at",.str (String.ofList firstHour.text))]
