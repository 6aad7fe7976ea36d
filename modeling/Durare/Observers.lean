import Durare.Told

/-! Any number of executors wait for one workflow: all that are told an outcome are told the same. -/
namespace Durare.Observers

open Interaction Latch Records Finalize

section Runs

variable {δ σ ρ α : Type} (backend : Backend σ ρ) (ctx : Context) (codec : Codec α)

/-- What an observer runs, with the serializer of its executor. -/
def observe (o : Observer) : Act δ α :=
  match o.role with
  | .owner ending rounds => awaitTask { ctx with serializer := o.serializer } codec rounds ending
  | .polling rounds => waitForResult { ctx with serializer := o.serializer } codec rounds

def setting : Crowd.Setting (History σ ρ) Observer σ Input Asked (Asked.Reply δ) (Except Error α) where
  program o := (observe ctx codec o).embed (fun q => (o.serializer, q)) fun _ reply => reply
  move := History.move backend
  answer := answer backend

variable {backend ctx}

/-- An answer forgets nothing of what stood. -/
theorem asks_grow {serializer : Serializer} {β : Type} {post : β → History σ ρ → Prop}
    {c : Client Ask (Ask.Reply δ) β} {h : History σ ρ}
    (safe : Safe (world backend serializer) (fun _ _ _ => True) post c h) :
    Safe (world backend serializer) (fun _ h h' => ∀ x ∈ stood backend h, x ∈ stood backend h') post c h := by
  induction c generalizing h with
  | done a => exact safe
  | halt => trivial
  | ask q k ih =>
    intro h' later reply h'' served
    refine ⟨?_, ih reply (safe h' later reply h'' served).2⟩
    obtain ⟨input, -, answered⟩ := served
    have grows := answer_grows (δ := δ) backend input (serializer, q) h'
    rw [answered] at grows
    exact grows

theorem observe_heard (lib_lawful : ctx.lib.Lawful) (sound : backend.Sound ctx.lib ctx.workflowId) (o : Observer)
    (h : History σ ρ) :
    Safe (world backend o.serializer) (fun _ _ _ => True) (Heard backend ctx.workflowId codec o.serializer)
      (observe ctx codec o : Act δ α) h := by
  obtain ⟨serializer, role, lawful, fits⟩ := o
  let executor : Context := { ctx with serializer := serializer }
  have own : backend.Sound executor.lib executor.workflowId := sound
  have library : executor.lib.Lawful := lib_lawful
  have format : executor.serializer.Lawful := lawful
  cases role with
  | owner ending rounds => exact awaitTask_heard library codec own format (fits ending rounds rfl) rounds h
  | polling rounds =>
    have heard := waitForResult_heard (δ := δ) codec own rounds h
    exact heard

theorem rule (lib_lawful : ctx.lib.Lawful) (sound : backend.Sound ctx.lib ctx.workflowId) :
    Crowd.Sound.Rule (setting (δ := δ) backend ctx codec) (worlds backend)
      (fun _ _ before after => ∀ x ∈ stood backend before, x ∈ stood backend after)
      (fun o result h => Heard backend ctx.workflowId codec o.serializer result h)
      (fun _ _ => True) (Proper backend) where
  safe o h := (asks_grow (observe_heard codec lib_lawful sound o h)).embed (fun _ _ later => later)
    (fun _ _ _ _ served => served) (fun _ _ _ grows => grows)
  served input _ _ proper := ⟨input, proper, rfl⟩
  guarantee _ _ _ _ grows := grows
  moved h store _ := stood_move backend h store
  stable _ _ _ _ heard later := heard.later later

/-- In every run each result that is not an interruption is read from an outcome that
stood, unless the row was gone. -/
theorem results_stood (lib_lawful : ctx.lib.Lawful) (sound : backend.Sound ctx.lib ctx.workflowId)
    {events : List (Crowd.Event σ Observer Input)} {store : σ}
    (allowed : Runs.Along (Crowd.next (setting (δ := δ) backend ctx codec))
      (Crowd.Allowed (fun _ _ => True) (Proper backend)) events (Crowd.start ⟨store, []⟩)) :
    ∀ r ∈ (Crowd.run (setting (δ := δ) backend ctx codec) events (Crowd.start ⟨store, []⟩)).returned,
      Heard backend ctx.workflowId codec r.1.serializer r.2
        (Crowd.run (setting (δ := δ) backend ctx codec) events (Crowd.start ⟨store, []⟩)).state :=
  (Crowd.Sound.run (rule codec lib_lawful sound) allowed).returned

end Runs

section Providers

variable (lib : SerdeJson) (id : String)

def memoryStanding (s : Memory.Inner) : Standing (Except Error Value) :=
  match s.workflows.get id with
  | none => .missing
  | some row => if row.status.isTerminal then .recorded (recordedResult lib id row) else .running

/-- Errors are read back in the default format, so a portable one is not read as written. -/
def memoryBackend : Backend Memory.Inner (Except Error Value) where
  set _ now status output error := Memory.setWorkflowStatus lib now id status output error
  row _ _ s := s.workflows.get id
  standing := memoryStanding lib id
  result _ outcome := outcome
  takes status s := (s.workflows.get id).any fun row => Memory.statusAllowed status row.status
  inFormat serializer status _ := status ≠ .error ∨ serializer.isPortable = false

theorem memory_landed {now : DateTime} {status : Status} {output : Option Value} {error : Option String}
    {s : Memory.Inner} (landed : (Memory.setWorkflowStatus lib now id status output error s).1 = .ok true)
    (terminal : status.isTerminal = true) : ∃ row,
      memoryStanding lib id (Memory.setWorkflowStatus lib now id status output error s).2 =
        .recorded (recordedResult lib id (Memory.writeStatus lib now status output error row)) := by
  unfold Memory.setWorkflowStatus at landed ⊢
  cases stored : s.workflows.get id with
  | none => simp [stored] at landed
  | some row =>
    by_cases allowed : Memory.statusAllowed status row.status
    · have written : (Memory.writeStatus lib now status output error row).status = status := by
        unfold Memory.writeStatus
        cases output <;> cases error <;> (dsimp only; split <;> rfl)
      exact ⟨row, by simp [allowed, memoryStanding, Memory.Inner.putRow, written, terminal]⟩
    · simp [stored, allowed] at landed

theorem memory_sound : (memoryBackend lib id).Sound lib id where
  terminal serializer now s status found terminal := by
    refine ⟨recordedResult lib id status, ?_, rfl⟩
    have present : s.workflows.get id = some status := found
    simp [memoryBackend, memoryStanding, present, terminal]
  absent serializer now s missing := by
    have absent : s.workflows.get id = none := missing
    simp [memoryBackend, memoryStanding, absent]
  refused serializer now status output error s e _ failed := by
    simp only [memoryBackend, Memory.setWorkflowStatus] at failed
    split at failed
    · cases failed
    · split at failed <;> cases failed
  taken serializer now status output error s landed := by
    simp only [memoryBackend, Memory.setWorkflowStatus] at landed ⊢
    split at landed
    · cases landed
    · rename_i row stored
      split at landed
      · rename_i allowed
        simp [stored, allowed]
      · cases landed
  succeeds serializer now v s _ _ landed := by
    obtain ⟨row, standing⟩ := memory_landed lib id landed rfl
    refine ⟨_, standing, ?_⟩
    simp [memoryBackend, recordedResult, Memory.writeStatus, Status.isTerminal]
  cancels serializer now text s landed := by
    obtain ⟨row, standing⟩ := memory_landed lib id landed rfl
    refine ⟨_, standing, ?_⟩
    simp [memoryBackend, recordedResult, Memory.writeStatus, Status.isTerminal]
  fails serializer now text error s lawful format reads landed := by
    obtain ⟨row, standing⟩ := memory_landed lib id landed rfl
    refine ⟨_, standing, ?_⟩
    have other : some serializer.name ≠ some PORTABLE := by
      intro same
      have plain : serializer.isPortable = false := format.resolve_left fun other => other rfl
      rw [lawful.1.portable_iff.mp (Option.some_inj.mp same)] at plain
      cases plain
    rw [readError, Checkpoints.decodeError_format lib _ other] at reads
    simp [memoryBackend, recordedResult, Memory.writeStatus, Status.isTerminal, reads]

/-- The columns of an SQLite row that decide its outcome. -/
structure RowOutcome where
  status : Status
  output : Option String
  error : Option String
  serialization : Option String
deriving DecidableEq

def RowOutcome.of (row : Sqlite.WorkflowRecord) : RowOutcome :=
  ⟨row.status, row.output, row.error, row.serialization⟩

def rowResult (serializer : Serializer) (outcome : RowOutcome) : Except Error Value :=
  match outcome.status with
  | .cancelled => .error (.cancelled id)
  | .maxRecoveryAttemptsExceeded => .error (.maxRecoveryAttemptsExceeded id)
  | .error =>
    let decoded := outcome.error.map (decodeError lib outcome.serialization)
    match tryFromParts lib ((decoded.map (·.1)).getD "workflow failed") (decoded.bind (·.2)) with
    | .ok error => .error error
    | .error failure => .error (observationError failure)
  | _ => .ok ((outcome.output.bind fun text =>
      (decode lib serializer outcome.serialization text).toOption).getD .null)

def sqliteStanding (db : Sqlite.Db) : Standing RowOutcome :=
  match db.workflowStatus.get id with
  | none => .missing
  | some row => if row.status.isTerminal then .recorded (.of row) else .running

/-- A row keeps the format it was inserted in, whoever writes its outcome; a cancellation
leaves nothing to read in it. -/
def sqliteBackend : Backend Sqlite.Db RowOutcome where
  set serializer now status output error := Sqlite.setWorkflowStatus lib serializer now id status output error
  row serializer now db := (db.workflowStatus.get id).map (Sqlite.rowToStatus lib serializer now id)
  standing := sqliteStanding id
  result := rowResult lib id
  takes status db := (db.workflowStatus.get id).any fun row => Memory.statusAllowed status row.status
  inFormat serializer status db := status = .cancelled ∨
    ∀ row, db.workflowStatus.get id = some row → row.serialization = some serializer.name

theorem sqlite_landed {serializer : Serializer} {now : DateTime} {status : Status} {output : Option Value}
    {error : Option String} {db : Sqlite.Db}
    (landed : (Sqlite.setWorkflowStatus lib serializer now id status output error db).1 = .ok true)
    (terminal : status.isTerminal = true) : ∃ row text, db.workflowStatus.get id = some row ∧
      Sqlite.encodeOpt lib serializer output = .ok text ∧
      sqliteStanding id (Sqlite.setWorkflowStatus lib serializer now id status output error db).2 =
        .recorded (.of (Sqlite.finishRecord now status text error row)) := by
  unfold Sqlite.setWorkflowStatus at landed ⊢
  cases encoded : Sqlite.encodeOpt lib serializer output with
  | error e => simp [encoded] at landed
  | ok text =>
    cases stored : db.workflowStatus.get id with
    | none => simp [encoded, stored] at landed
    | some row =>
      by_cases allowed : Memory.statusAllowed status row.status
      · exact ⟨row, text, rfl, rfl, by simp [allowed, sqliteStanding, Sqlite.finishRecord, terminal]⟩
      · simp [encoded, stored, allowed] at landed

theorem sqlite_sound (lib_lawful : lib.Lawful) : (sqliteBackend lib id).Sound lib id where
  terminal serializer now db status found terminal := by
    cases stored : db.workflowStatus.get id with
    | none => simp [sqliteBackend, stored] at found
    | some row =>
      simp only [sqliteBackend, stored, Option.map_some, Option.some_inj] at found
      subst found
      have ended : row.status.isTerminal = true := terminal
      exact ⟨.of row, by simp [sqliteBackend, sqliteStanding, stored, ended], rfl⟩
  absent serializer now db missing := by
    have absent : db.workflowStatus.get id = none := by simpa [sqliteBackend] using missing
    simp [sqliteBackend, sqliteStanding, absent]
  refused serializer now status output error db e lawful failed := by
    have encodes : ∃ text, Sqlite.encodeOpt lib serializer output = .ok text := by
      cases output with
      | none => exact ⟨none, rfl⟩
      | some v =>
        obtain ⟨text, stored⟩ := lawful.stored lib_lawful v
        exact ⟨some text, by simp [Sqlite.encodeOpt, stored.1, Except.map]⟩
    obtain ⟨text, encoded⟩ := encodes
    simp only [sqliteBackend, Sqlite.setWorkflowStatus, encoded] at failed
    split at failed
    · cases failed
    · split at failed <;> cases failed
  taken serializer now status output error db landed := by
    simp only [sqliteBackend, Sqlite.setWorkflowStatus] at landed ⊢
    split at landed
    · cases landed
    · split at landed
      · cases landed
      · rename_i row stored
        split at landed
        · rename_i allowed
          simp [stored, allowed]
        · cases landed
  succeeds serializer now v db lawful format landed := by
    obtain ⟨row, text, stored, encoded, standing⟩ := sqlite_landed lib id landed rfl
    refine ⟨_, standing, ?_⟩
    obtain ⟨written, stores⟩ := lawful.stored lib_lawful v
    have tag : row.serialization = some serializer.name := by
      rcases format with cancelled | format
      · cases cancelled
      · exact format row stored
    simp only [Sqlite.encodeOpt, stores.1, Except.map, Except.ok.injEq] at encoded
    subst encoded
    simp [sqliteBackend, rowResult, RowOutcome.of, Sqlite.finishRecord, tag, stores.2, Except.toOption]
  cancels serializer now text db landed := by
    obtain ⟨row, written, -, -, standing⟩ := sqlite_landed lib id landed rfl
    exact ⟨_, standing, rfl⟩
  fails serializer now text error db lawful format reads landed := by
    obtain ⟨row, written, stored, -, standing⟩ := sqlite_landed lib id landed rfl
    refine ⟨_, standing, ?_⟩
    have tag : row.serialization = some serializer.name := by
      rcases format with cancelled | format
      · cases cancelled
      · exact format row stored
    simp only [readError] at reads
    simp [sqliteBackend, rowResult, RowOutcome.of, Sqlite.finishRecord, tag, reads]

/-- Two executors read the same of the columns: only the output of a row that succeeded is
read with the executor's own codec. -/
def ReadAlike (a b : Serializer) (outcome : RowOutcome) : Prop :=
  outcome.status = .cancelled ∨ outcome.status = .maxRecoveryAttemptsExceeded ∨ outcome.status = .error ∨
    outcome.serialization = some DBOS_JSON ∨ outcome.serialization = some PORTABLE ∨ a = b

theorem decode_default {serializer : Serializer} (named : serializer.Named) (text : String) :
    decode lib serializer (some DBOS_JSON) text = decode lib .json (some DBOS_JSON) text := by
  cases serializer with
  | json => rfl
  | portable => rfl
  | custom codec => simp [decode, DBOS_JSON, PORTABLE, show codec.name ≠ "DBOS_JSON" from named.2]

theorem rowResult_alike {a b : Serializer} (first : a.Named) (second : b.Named) {outcome : RowOutcome}
    (alike : ReadAlike a b outcome) : rowResult lib id a outcome = rowResult lib id b outcome := by
  obtain ⟨status, output, error, serialization⟩ := outcome
  rcases alike with ended | ended | ended | tagged | tagged | same
  · cases ended
    rfl
  · cases ended
    rfl
  · cases ended
    rfl
  · cases tagged
    have reads : decode lib a (some DBOS_JSON) = decode lib b (some DBOS_JSON) :=
      funext fun text => (decode_default lib first text).trans (decode_default lib second text).symm
    simp [rowResult, reads]
  · cases tagged
    have reads : decode lib a (some PORTABLE) = decode lib b (some PORTABLE) :=
      funext fun text => by simp [decode]
    simp [rowResult, reads]
  · rw [same]

end Providers

section Agreement

variable {δ σ ρ α : Type} (backend : Backend σ ρ) (ctx : Context) (codec : Codec α)

/-- The row runs, and then has one outcome. -/
def Settles (outcome : ρ) (h : History σ ρ) : Prop :=
  ∀ x ∈ stood backend h, x = .running ∨ x = .recorded outcome

/-- In every run each observer reads an outcome that stood, and two that read the row alike
are told the same. -/
def Agreement (δ : Type) (alike : Serializer → Serializer → ρ → Prop) : Prop :=
  ∀ (events : List (Crowd.Event σ Observer Input)) (store : σ),
    Runs.Along (Crowd.next (setting (δ := δ) backend ctx codec))
      (Crowd.Allowed (fun _ _ => True) (Proper backend)) events (Crowd.start ⟨store, []⟩) →
    let last := Crowd.run (setting (δ := δ) backend ctx codec) events (Crowd.start ⟨store, []⟩)
    (∀ r ∈ last.returned, Heard backend ctx.workflowId codec r.1.serializer r.2 last.state) ∧
    ∀ outcome, Settles backend outcome last.state →
      ∀ a ∈ last.returned, ∀ b ∈ last.returned, alike a.1.serializer b.1.serializer outcome →
        Uninterrupted a.2 → Uninterrupted b.2 → a.2 = b.2

variable {backend ctx codec}

theorem Heard.settled {serializer : Serializer} {result : Except Error α} {id : String} {h : History σ ρ} {outcome : ρ}
    (heard : Heard backend id codec serializer result h) (settles : Settles backend outcome h)
    (free : Uninterrupted result) : result = typed codec (backend.result serializer outcome) := by
  rcases heard free with ⟨told, member, same⟩ | ⟨missing, -⟩
  · rcases settles _ member with running | recorded
    · cases running
    · cases recorded
      exact same
  · rcases settles _ missing with running | recorded
    · cases running
    · cases recorded

theorem agreement {alike : Serializer → Serializer → ρ → Prop} (lib_lawful : ctx.lib.Lawful)
    (sound : backend.Sound ctx.lib ctx.workflowId)
    (reads : ∀ (a b : Observer) outcome, alike a.serializer b.serializer outcome →
      backend.result a.serializer outcome = backend.result b.serializer outcome) :
    Agreement backend ctx codec δ alike := by
  intro events store allowed last
  have heard := results_stood codec lib_lawful sound allowed
  refine ⟨heard, ?_⟩
  intro outcome settles a first b second same plainA plainB
  calc a.2 = typed codec (backend.result a.1.serializer outcome) := (heard a first).settled settles plainA
    _ = typed codec (backend.result b.1.serializer outcome) := by rw [reads a.1 b.1 outcome same]
    _ = b.2 := ((heard b second).settled settles plainB).symm

end Agreement

section Result

/-- The execution of `parent` after its body ended. -/
def parentOwner (ending : Ending) (fits : FitsEnding ending) : Observer where
  serializer := .json
  role := .owner ending 1
  lawful := ⟨trivial, trivial⟩
  fits := fun _ _ same => by cases same; exact fits

def parentPoller : Observer where
  serializer := .json
  role := .polling 1
  lawful := ⟨trivial, trivial⟩
  fits := fun _ _ same => by cases same

def quietly : Input := ⟨5000000, none, none⟩

def concludeThenPoll (owner : Observer) : List (Crowd.Event Memory.Inner Observer Input) :=
  [.enter owner, .tick 0 quietly, .tick 0 quietly, .tick 0 quietly,
    .enter parentPoller, .tick 0 quietly, .tick 0 quietly]

noncomputable abbrev parentBackend : Backend Memory.Inner (Except Error Value) :=
  memoryBackend parentContext.lib parentContext.workflowId

noncomputable abbrev parentSetting := setting (δ := Unit) parentBackend parentContext Codec.value

noncomputable abbrev parentRun (owner : Observer) :=
  Crowd.run parentSetting (concludeThenPoll owner) (Crowd.start ⟨parentStore, []⟩)

def succeeded : Observer := parentOwner (.returned (.ok (.bool true))) trivial

def expired : Observer := parentOwner .elapsed trivial

end Result

end Durare.Observers
