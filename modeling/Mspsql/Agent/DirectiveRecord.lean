import Mspsql.Hub.Slots
import Mspsql.Lib.Versioned

/-!
# The durable record of a directive

The agent keeps one ConfigMap for each operation.  A worker reads it, marks the operation as
running, executes the directive, stores the result and sends it.  A stored result is never
written over: `upsert` leaves a terminal record alone.  It also reports no error then, so a
worker that comes to store another result goes on and sends that one (`rivals_disagree`).

The machine runs the workers of one operation.  Workers of a lost connection go on next to
those of the next one, but what they send reaches nobody.
-/

namespace Mspsql

open List

structure TimedCondition extends Condition where
  lastTransitionTime : Time
deriving DecidableEq, Repr

/-- A condition as JSON keeps it: times to the second. -/
def TimedCondition.stored (c : TimedCondition) : TimedCondition :=
  { c with lastTransitionTime := storedTime c.lastTransitionTime }

@[simp] theorem TimedCondition.stored_stored (c : TimedCondition) : c.stored.stored = c.stored := by
  simp only [TimedCondition.stored, storedTime_storedTime]

inductive DirectivePhase where
  | running
  | succeeded
  | failed
deriving DecidableEq, Repr

structure DirectiveState where
  operationUID : String
  instanceUID : String
  phase : DirectivePhase
  conditions : List TimedCondition := []
deriving DecidableEq, Repr

def DirectiveState.terminal (s : DirectiveState) : Bool :=
  s.phase = .succeeded ∨ s.phase = .failed

structure Delivery where
  operationUID : String
  instanceUID : String

/-- What `MarkRunning` stores. -/
def markRunning (message : Delivery) : DirectiveState where
  operationUID := message.operationUID
  instanceUID := message.instanceUID
  phase := .running

/-- What `MarkTerminal` stores. -/
def markTerminal (message : Delivery) (conditions : List TimedCondition) : DirectiveState where
  operationUID := message.operationUID
  instanceUID := message.instanceUID
  phase := if conditions.any fun c => c.type = "Succeeded" ∧ c.status = .false then .failed
    else .succeeded
  conditions := conditions.map TimedCondition.stored

/-- What `Execute` returns. -/
structure Execution where
  conditions : List TimedCondition := []
  error : Option String := none
  now : Time := 0

/-- The conditions `applyDirective` makes of it. -/
def Execution.reported (e : Execution) : List TimedCondition :=
  match e.error with
  | none => e.conditions
  | some text => e.conditions ++ [{
      type := "Succeeded", status := .false, reason := "ExecutionFailed", message := text
      lastTransitionTime := e.now }]

/-! ## Workers -/

/-- What a worker of `applyDirective` does next.  `upsert` reads the record and then writes
over what it has read, or gives up on a terminal record. -/
inductive WorkerStage where
  | load
  | readRunning
  | writeRunning (seen : Option Nat)
  | progress
  | execute
  | readTerminal (conditions : List TimedCondition)
  | writeTerminal (conditions : List TimedCondition) (seen : Option Nat)
  | send (conditions : List TimedCondition)
  | done
deriving DecidableEq, Repr

namespace WorkerStage

/-- The worker has read the record and has not finished. -/
def pastLoad : WorkerStage → Bool
  | .load | .done => false
  | _ => true

def seen? : WorkerStage → Option (Option Nat)
  | .writeRunning seen | .writeTerminal _ seen => some seen
  | _ => none

end WorkerStage

structure DirectiveWorker where
  connection : Nat
  stage : WorkerStage := .load
deriving DecidableEq, Repr

/-- The effect of one call of a worker. -/
structure WorkerStep where
  stage : WorkerStage
  record : Option (Versioned DirectiveState)
  sent : Option (List TimedCondition) := none

section Workers

variable (message : Delivery) (record : Option (Versioned DirectiveState))

/-- `Load`: a terminal record is sent as it is. -/
def loadRecord : WorkerStep :=
  match record with
  | some r =>
    if r.value.instanceUID = message.instanceUID ∧ r.value.terminal = true then
      ⟨.send r.value.conditions, record, none⟩
    else ⟨.readRunning, record, none⟩
  | none => ⟨.readRunning, record, none⟩

/-- The read of `upsert`. -/
def upsertRead (write : Option Nat → WorkerStage) (next : WorkerStage) : WorkerStep :=
  match record with
  | some r =>
    if r.value.terminal then ⟨next, record, none⟩ else ⟨write (some r.version), record, none⟩
  | none => ⟨write none, record, none⟩

/-- The write of `upsert`; a conflict is tried again. -/
def upsertWrite (state : DirectiveState) (seen : Option Nat) (retry next : WorkerStage) :
    WorkerStep :=
  match Versioned.write record seen state with
  | .written r => ⟨next, some r, none⟩
  | .conflict => ⟨retry, record, none⟩
  | .alreadyExists => ⟨.done, record, none⟩

/-- The next call of a worker; `live` tells whether its stream is the current one. -/
def WorkerStage.advance (live : Bool) (execution : Execution) : WorkerStage → WorkerStep
  | .load => loadRecord message record
  | .readRunning => upsertRead record .writeRunning .progress
  | .writeRunning seen => upsertWrite record (markRunning message) seen .readRunning .progress
  | .progress => ⟨if live then .execute else .done, record, none⟩
  | .execute => ⟨.readTerminal execution.reported, record, none⟩
  | .readTerminal conditions =>
    upsertRead record (.writeTerminal conditions) (.send conditions)
  | .writeTerminal conditions seen =>
    upsertWrite record (markTerminal message conditions) seen (.readTerminal conditions)
      (.send conditions)
  | .send conditions => ⟨.done, record, if live then some conditions else none⟩
  | .done => ⟨.done, record, none⟩

end Workers

/-! ## The machine -/

structure SentResult where
  conditions : List TimedCondition
  recorded : Option DirectiveState
deriving DecidableEq, Repr

structure DirectiveAgent where
  record : Option (Versioned DirectiveState) := none
  workers : List DirectiveWorker := []
  /-- The current connection. -/
  connection : Option Nat := none
  /-- The number of connections so far. -/
  connections : Nat := 0
  /-- Every terminal record ever stored. -/
  terminals : List DirectiveState := []
  sent : List SentResult := []
deriving DecidableEq

inductive DirectiveAgentEvent where
  | connect
  | disconnect
  | crash
  /-- The directive is delivered on the current connection. -/
  | deliver
  /-- A worker makes its next call, which fails or not. -/
  | work (worker : Nat) (fails : Bool) (execution : Execution)

namespace DirectiveAgent

def terminalRecord (s : DirectiveAgent) : Option DirectiveState :=
  (s.record.map (·.value)).filter (·.terminal)

def applyStep (s : DirectiveAgent) (i : Nat) (w : DirectiveWorker) (step : WorkerStep) :
    DirectiveAgent :=
  { s with
    record := step.record
    workers := s.workers.set i { w with stage := step.stage }
    terminals := if step.record = s.record then s.terminals
      else (step.record.map (·.value)).toList.filter (·.terminal) ++ s.terminals
    sent := (step.sent.map fun conditions => ⟨conditions, s.terminalRecord⟩).toList ++ s.sent }

def step (message : Delivery) (s : DirectiveAgent) : DirectiveAgentEvent → Option DirectiveAgent
  | .connect => some { s with connection := some s.connections, connections := s.connections + 1 }
  | .disconnect => some { s with connection := none }
  | .crash => some { s with connection := none, workers := [] }
  | .deliver =>
    match s.connection with
    | some k =>
      -- a directive that is being worked on is not taken twice
      if s.workers.any fun w => w.connection = k ∧ w.stage ≠ .done then some s
      else some { s with workers := s.workers ++ [⟨k, .load⟩] }
    | none => none
  | .work i fails execution =>
    match s.workers[i]? with
    | some w =>
      if fails then some { s with workers := s.workers.set i { w with stage := .done } }
      else
        let live := decide (some w.connection = s.connection)
        some (s.applyStep i w (w.stage.advance message s.record live execution))
    | none => none

def Initial (s : DirectiveAgent) : Prop := s = {}

/-- A stored result stays, and results sent after it say the same. -/
@[mk_iff] structure Durable (s : DirectiveAgent) : Prop where
  stored : ∀ r ∈ s.terminals, s.record.map (·.value) = some r
  sent : ∀ m ∈ s.sent, ∀ r ∈ m.recorded, m.conditions.map TimedCondition.stored = r.conditions

instance (s : DirectiveAgent) : Decidable (Durable s) := decidable_of_iff _ (durable_iff s).symm

def storesTerminal (s : DirectiveAgent) (w : DirectiveWorker) : Bool :=
  match w.stage with
  | .writeTerminal _ seen => seen = s.record.map (·.version)
  | _ => false

/-- When a result is stored, no other worker of the current connection is between its read
of the record and its result. -/
def unrivalled (s : DirectiveAgent) : DirectiveAgentEvent → Prop
  | .work i false _ => ∀ w ∈ s.workers[i]?, s.storesTerminal w = true →
    ∀ j < s.workers.length, j ≠ i → ∀ other ∈ s.workers[j]?,
      some other.connection = s.connection → other.stage.pastLoad = false
  | _ => True

instance (s : DirectiveAgent) (e : DirectiveAgentEvent) : Decidable (unrivalled s e) := by
  unfold unrivalled
  split <;> infer_instance

/-! ## Calls of a worker -/

section Calls

variable {message : Delivery} {record : Option (Versioned DirectiveState)} {live : Bool}
  {execution : Execution} {stage : WorkerStage}

structure Writes (message : Delivery) (record : Option (Versioned DirectiveState))
    (stage : WorkerStage) (step : WorkerStep) (seen : Option Nat) (r : Versioned DirectiveState) :
    Prop where
  reading : stage.seen? = some seen
  state : ∃ state, Versioned.write record seen state = .written r ∧
    (state = markRunning message ∨ ∃ conditions, stage = .writeTerminal conditions seen ∧
      state = markTerminal message conditions ∧ step.stage = .send conditions)
  record : step.record = some r

theorem loadRecord_record : (loadRecord message record).record = record := by
  unfold loadRecord
  split
  · split <;> rfl
  · rfl

theorem upsertRead_record (write : Option Nat → WorkerStage) (next : WorkerStage) :
    (upsertRead record write next).record = record := by
  unfold upsertRead
  split
  · split <;> rfl
  · rfl

theorem upsertWrite_record (state : DirectiveState) (seen : Option Nat) (retry next : WorkerStage) :
    (upsertWrite record state seen retry next).record = record ∨
      ∃ r, Versioned.write record seen state = .written r ∧
        upsertWrite record state seen retry next = ⟨next, some r, none⟩ := by
  unfold upsertWrite
  split
  · rename_i r hr
    exact .inr ⟨r, hr, rfl⟩
  · exact .inl rfl
  · exact .inl rfl

theorem advance_record (message : Delivery) (record : Option (Versioned DirectiveState))
    (live : Bool) (execution : Execution) (stage : WorkerStage) :
    (stage.advance message record live execution).record = record ∨
      ∃ seen r,
        Writes message record stage (stage.advance message record live execution) seen r := by
  cases stage with
  | load => exact .inl loadRecord_record
  | readRunning | readTerminal conditions => exact .inl (upsertRead_record ..)
  | writeRunning seen =>
    refine (upsertWrite_record (markRunning message) seen .readRunning .progress).imp id ?_
    rintro ⟨r, hr, hstep⟩
    exact ⟨seen, r, rfl, ⟨_, hr, .inl rfl⟩, congrArg (·.record) hstep⟩
  | writeTerminal conditions seen =>
    refine (upsertWrite_record (markTerminal message conditions) seen (.readTerminal conditions)
      (.send conditions)).imp id ?_
    rintro ⟨r, hr, hstep⟩
    exact ⟨seen, r, rfl, ⟨_, hr, .inr ⟨conditions, rfl, rfl, congrArg (·.stage) hstep⟩⟩,
      congrArg (·.record) hstep⟩
  | _ => exact .inl rfl

theorem upsertRead_seen {write : Option Nat → WorkerStage} {next : WorkerStage}
    (hwrite : ∀ seen, (write seen).seen? = some seen) (hnext : next.seen? = none)
    {seen : Option Nat} (h : (upsertRead record write next).stage.seen? = some seen) :
    Versioned.Seen (·.terminal = false) (upsertRead record write next).record seen := by
  rw [upsertRead_record]
  unfold upsertRead at h
  split at h
  · split at h
    · rw [hnext] at h
      cases h
    rename_i hopen
    rw [hwrite] at h
    cases h
    exact Versioned.seen_read (Bool.not_eq_true _ ▸ hopen)
  · rw [hwrite] at h
    cases h
    exact Versioned.seen_none

theorem upsertWrite_unseen {state : DirectiveState} {seen : Option Nat} {retry next : WorkerStage}
    (hretry : retry.seen? = none) (hnext : next.seen? = none) :
    (upsertWrite record state seen retry next).stage.seen? = none := by
  unfold upsertWrite
  split
  · exact hnext
  · exact hretry
  · rfl

theorem loadRecord_unseen : (loadRecord message record).stage.seen? = none := by
  unfold loadRecord
  split
  · split <;> rfl
  · rfl

theorem advance_seen {seen : Option Nat}
    (h : (stage.advance message record live execution).stage.seen? = some seen) :
    Versioned.Seen (·.terminal = false) (stage.advance message record live execution).record
      seen := by
  cases stage with
  | readRunning | readTerminal conditions => exact upsertRead_seen (fun _ => rfl) rfl h
  | load => cases loadRecord_unseen.symm.trans h
  | writeRunning old =>
    have hnone : (upsertWrite record (markRunning message) old .readRunning
      .progress).stage.seen? = none := upsertWrite_unseen rfl rfl
    cases hnone.symm.trans h
  | writeTerminal conditions old =>
    have hnone : (upsertWrite record (markTerminal message conditions) old
        (.readTerminal conditions) (.send conditions)).stage.seen? = none :=
      upsertWrite_unseen rfl rfl
    cases hnone.symm.trans h
  | progress => cases live <;> cases h
  | _ => cases h

end Calls

/-! ## A stored result stays -/

/-- What holds in every run: writers know that what they write over is not terminal. -/
structure Settled (message : Delivery) (s : DirectiveAgent) : Prop where
  seen : ∀ w ∈ s.workers, ∀ seen, w.stage.seen? = some seen →
    Versioned.Seen (·.terminal = false) s.record seen
  stored : ∀ r ∈ s.terminals, r.terminal = true ∧ s.record.map (·.value) = some r
  encoded : ∀ r ∈ s.record, r.value.instanceUID = message.instanceUID ∧
    r.value.conditions.map TimedCondition.stored = r.value.conditions

theorem marked_encoded {message : Delivery} {state : DirectiveState}
    (h : state = markRunning message ∨ ∃ conditions, state = markTerminal message conditions) :
    state.instanceUID = message.instanceUID ∧
      state.conditions.map TimedCondition.stored = state.conditions := by
  rcases h with rfl | ⟨conditions, rfl⟩
  · exact ⟨rfl, rfl⟩
  refine ⟨rfl, ?_⟩
  show (conditions.map TimedCondition.stored).map TimedCondition.stored = _
  rw [map_map]
  exact map_congr_left fun c _ => c.stored_stored

variable {message : Delivery} {s t : DirectiveAgent}

variable {i : Nat} {w : DirectiveWorker} {execution : Execution}

theorem mem_set_workers {w' : DirectiveWorker} (h : w ∈ s.workers.set i w') :
    w = w' ∨ ∃ j, j ≠ i ∧ s.workers[j]? = some w := by
  obtain ⟨j, hj⟩ := getElem?_of_mem h
  rw [getElem?_set] at hj
  split at hj
  · split at hj
    · exact .inl (Option.some.inj hj).symm
    · cases hj
  · rename_i hne
    exact .inr ⟨j, fun heq => hne heq.symm, hj⟩

theorem Settled.applyStep (h : Settled message s) (hw : s.workers[i]? = some w) (live : Bool)
    (execution : Execution) :
    Settled message (s.applyStep i w (w.stage.advance message s.record live execution)) := by
  have hmem : w ∈ s.workers := mem_of_getElem? hw
  have hmoved : ∀ seen, (w.stage.advance message s.record live execution).stage.seen? = some seen →
      Versioned.Seen (·.terminal = false) (w.stage.advance message s.record live execution).record
        seen := fun seen hseen => advance_seen hseen
  rcases advance_record message s.record live execution w.stage with
    hsame | ⟨seen, r, hover, ⟨state, hwritten, hstate⟩, hrecord⟩
  · refine ⟨fun x hx seen hseen => ?_, ?_, ?_⟩
    · rcases mem_set_workers hx with rfl | ⟨j, -, hj⟩
      · exact hmoved seen hseen
      show Versioned.Seen _ (w.stage.advance message s.record live execution).record seen
      rw [hsame]
      exact h.seen x (mem_of_getElem? hj) seen hseen
    · unfold DirectiveAgent.applyStep
      rw [if_pos hsame, hsame]
      exact h.stored
    · unfold DirectiveAgent.applyStep
      rw [hsame]
      exact h.encoded
  · -- the record that was written over was not terminal, so there was no terminal one
    have hnone : s.terminals = [] := by
      refine eq_nil_iff_forall_not_mem.mpr fun old hold => ?_
      obtain ⟨hterminal, hvalue⟩ := h.stored old hold
      obtain ⟨object, hobject, rfl⟩ := Option.map_eq_some_iff.mp hvalue
      have hopen := h.seen w hmem seen hover
      rw [hobject] at hwritten hopen
      have hfalse := Versioned.write_over hwritten hopen
      rw [hterminal] at hfalse
      cases hfalse
    have hvalue := (Versioned.write_cases hwritten).1
    refine ⟨fun x hx seen' hseen => ?_, fun old hold => ?_, fun object hobject => ?_⟩
    · rcases mem_set_workers hx with rfl | ⟨j, -, hj⟩
      · exact hmoved seen' hseen
      show Versioned.Seen _ (w.stage.advance message s.record live execution).record seen'
      rw [hrecord]
      exact Versioned.seen_write hwritten (h.seen x (mem_of_getElem? hj) seen' hseen)
    · unfold DirectiveAgent.applyStep at hold ⊢
      rw [hrecord, hnone] at hold
      rw [hrecord]
      have hold : old ∈ [r.value].filter (·.terminal) := by
        split at hold
        · cases hold
        · simpa using hold
      obtain ⟨hold, hterminal⟩ := mem_filter.mp hold
      rw [mem_singleton.mp hold] at hterminal ⊢
      exact ⟨hterminal, rfl⟩
    · have hobject : some r = some object := hrecord.symm.trans hobject
      cases hobject
      rw [hvalue]
      refine marked_encoded (hstate.imp id ?_)
      rintro ⟨conditions, -, hmarked, -⟩
      exact ⟨conditions, hmarked⟩

theorem Settled.frame (h : Settled message s) (hrecord : t.record = s.record)
    (hterminals : t.terminals = s.terminals)
    (hworkers : ∀ w ∈ t.workers, w.stage.seen? = none ∨ w ∈ s.workers) : Settled message t := by
  refine ⟨fun w hw seen hseen => ?_, ?_, ?_⟩
  · rcases hworkers w hw with hnone | hold
    · cases hnone.symm.trans hseen
    · rw [hrecord]
      exact h.seen w hold seen hseen
  · rw [hterminals, hrecord]
    exact h.stored
  · rw [hrecord]
    exact h.encoded

theorem Settled.step {e : DirectiveAgentEvent} (h : Settled message s)
    (hst : s.step message e = some t) : Settled message t := by
  cases e with
  | connect | disconnect =>
    cases hst
    exact h.frame rfl rfl fun w hw => .inr hw
  | crash =>
    cases hst
    exact h.frame rfl rfl nofun
  | deliver =>
    simp only [DirectiveAgent.step] at hst
    split at hst
    · split at hst
      · cases hst
        exact h
      cases hst
      refine h.frame rfl rfl fun w hw => ?_
      rcases mem_append.mp hw with hw | hw
      · exact .inr hw
      · rw [mem_singleton.mp hw]
        exact .inl rfl
    · cases hst
  | work i fails execution =>
    simp only [DirectiveAgent.step] at hst
    split at hst
    · rename_i hw
      split at hst
      · cases hst
        refine h.frame rfl rfl fun x hx => ?_
        rcases mem_set_workers hx with rfl | ⟨j, -, hj⟩
        · exact .inl rfl
        · exact .inr (mem_of_getElem? hj)
      · cases hst
        exact h.applyStep hw _ execution
    · cases hst

open Machine

/-- Once a terminal record is stored it never changes, in any run. -/
theorem terminal_stays {ok : DirectiveAgent → DirectiveAgentEvent → Prop}
    (h : Reach (step message) Initial ok s) :
    ∀ r ∈ s.terminals, s.record.map (·.value) = some r := by
  have hsettled : Settled message s := by
    refine h.invariant ?_ fun _ _ _ hs _ hst => hs.step hst
    rintro _ rfl
    exact ⟨nofun, nofun, nofun⟩
  exact fun r hr => (hsettled.stored r hr).2

/-! ## Results that agree with it -/

/-- A worker of the current connection that has read the record has nothing left to do but
to send what is stored, once that is terminal. -/
structure Agreeing (message : Delivery) (s : DirectiveAgent) : Prop extends Settled message s where
  connections : ∀ w ∈ s.workers, w.connection < s.connections
  current : ∀ k ∈ s.connection, k < s.connections
  live : ∀ r ∈ s.terminalRecord, ∀ w ∈ s.workers, some w.connection = s.connection →
    w.stage.pastLoad = true → ∃ conditions, w.stage = .send conditions ∧
        conditions.map TimedCondition.stored = r.conditions
  sent : ∀ m ∈ s.sent, ∀ r ∈ m.recorded, m.conditions.map TimedCondition.stored = r.conditions

theorem terminalRecord_eq_some {r : DirectiveState} :
    s.terminalRecord = some r ↔ s.record.map (·.value) = some r ∧ r.terminal = true := by
  unfold terminalRecord
  rw [Option.filter_eq_some_iff]

theorem advance_live {r : Versioned DirectiveState} {stage : WorkerStage}
    (hinstance : r.value.instanceUID = message.instanceUID)
    (hencoded : r.value.conditions.map TimedCondition.stored = r.value.conditions)
    (hterminal : r.value.terminal = true)
    (hstage : stage.pastLoad = true → ∃ conditions, stage = .send conditions)
    (hpast : (stage.advance message (some r) true execution).stage.pastLoad = true) :
    ∃ conditions, (stage.advance message (some r) true execution).stage = .send conditions ∧
      conditions.map TimedCondition.stored = r.value.conditions := by
  by_cases hbefore : stage.pastLoad = true
  · obtain ⟨conditions, rfl⟩ := hstage hbefore
    cases hpast
  cases stage with
  | load =>
    refine ⟨r.value.conditions, ?_, hencoded⟩
    show (loadRecord message (some r)).stage = _
    simp [loadRecord, hinstance, hterminal]
  | done => cases hpast
  | _ => exact absurd rfl hbefore

theorem advance_sent {live : Bool} {record : Option (Versioned DirectiveState)}
    {stage : WorkerStage} {conditions : List TimedCondition}
    (h : (stage.advance message record live execution).sent = some conditions) :
    stage = .send conditions ∧ live = true := by
  have hload : (loadRecord message record).sent = none := by
    unfold loadRecord
    split
    · split <;> rfl
    · rfl
  have hread : ∀ write next, (upsertRead record write next).sent = none := by
    intro write next
    unfold upsertRead
    split
    · split <;> rfl
    · rfl
  have hwrite : ∀ state seen retry next,
      (upsertWrite record state seen retry next).sent = none := by
    intro state seen retry next
    unfold upsertWrite
    split <;> rfl
  cases stage with
  | load => cases hload.symm.trans h
  | readRunning | readTerminal _ => cases (hread _ _).symm.trans h
  | writeRunning _ | writeTerminal _ _ => cases (hwrite _ _ _ _).symm.trans h
  | send c =>
    cases live with
    | true =>
      cases h
      exact ⟨rfl, rfl⟩
    | false => cases h
  | _ => cases h

theorem Agreeing.live_applyStep (h : Agreeing message s) (hw : s.workers[i]? = some w)
    (hok : unrivalled s (.work i false execution)) :
    ∀ r ∈ (s.applyStep i w (w.stage.advance message s.record
        (decide (some w.connection = s.connection)) execution)).terminalRecord,
      ∀ x ∈ s.workers.set i { w with stage := (w.stage.advance message s.record
          (decide (some w.connection = s.connection)) execution).stage },
        some x.connection = s.connection → x.stage.pastLoad = true →
          ∃ conditions, x.stage = .send conditions ∧
            conditions.map TimedCondition.stored = r.conditions := by
  have hmem : w ∈ s.workers := mem_of_getElem? hw
  intro r hr x hx hlive hpast
  obtain ⟨hvalue, hterminal⟩ := terminalRecord_eq_some.mp hr
  have hvalue : ((w.stage.advance message s.record (decide (some w.connection = s.connection))
      execution).record).map (·.value) = some r := hvalue
  rcases advance_record message s.record (decide (some w.connection = s.connection)) execution
    w.stage with hsame | ⟨seen, object, hover, ⟨state, hwritten, hstate⟩, hrecord⟩
  · -- the record is the one before
    rw [hsame] at hvalue
    have hlast := h.live r (terminalRecord_eq_some.mpr ⟨hvalue, hterminal⟩)
    rcases mem_set_workers hx with rfl | ⟨j, -, hj⟩
    · obtain ⟨object, hobject, rfl⟩ := Option.map_eq_some_iff.mp hvalue
      obtain ⟨hinstance, hencoded⟩ := h.encoded object hobject
      rw [decide_eq_true hlive, hobject] at hpast ⊢
      refine advance_live hinstance hencoded hterminal (fun hbefore => ?_) hpast
      obtain ⟨conditions, hstage, -⟩ := hlast w hmem hlive hbefore
      exact ⟨conditions, hstage⟩
    · exact hlast x (mem_of_getElem? hj) hlive hpast
  · -- the worker has stored a terminal record, so it is alone
    rw [hrecord] at hvalue
    have hvalue : object.value = r := Option.some.inj hvalue
    obtain ⟨hstored, hversion, -⟩ := Versioned.write_cases hwritten
    rcases hstate with hrunning | ⟨conditions, hstage, hmarked, hnext⟩
    · rw [← hvalue, hstored, hrunning] at hterminal
      cases hterminal
    rcases mem_set_workers hx with rfl | ⟨j, hne, hj⟩
    · refine ⟨conditions, hnext, ?_⟩
      rw [← hvalue, hstored, hmarked]
      rfl
    · have hstores : s.storesTerminal w = true := by
        unfold storesTerminal
        rw [hstage]
        exact decide_eq_true hversion
      have hlength : j < s.workers.length := (List.getElem?_eq_some_iff.mp hj).1
      have hnot := hok w hw hstores j hlength hne x hj hlive
      rw [hnot] at hpast
      cases hpast

theorem Agreeing.applyStep (h : Agreeing message s) (hw : s.workers[i]? = some w)
    (hok : unrivalled s (.work i false execution)) :
    Agreeing message (s.applyStep i w (w.stage.advance message s.record
      (decide (some w.connection = s.connection)) execution)) := by
  have hmem : w ∈ s.workers := mem_of_getElem? hw
  refine ⟨h.toSettled.applyStep hw _ execution, fun x hx => ?_, h.current,
    h.live_applyStep hw hok, fun m hm r hr => ?_⟩
  · rcases mem_set_workers hx with rfl | ⟨j, -, hj⟩
    · exact h.connections w hmem
    · exact h.connections x (mem_of_getElem? hj)
  · rcases mem_append.mp hm with hm | hm
    · rw [Option.mem_toList] at hm
      obtain ⟨conditions, hsent, rfl⟩ := Option.map_eq_some_iff.mp hm
      obtain ⟨hstage, hlive⟩ := advance_sent hsent
      obtain ⟨conditions', hstage', hagree⟩ := h.live r hr w hmem (of_decide_eq_true hlive)
        (by rw [hstage]; rfl)
      rw [hstage, WorkerStage.send.injEq] at hstage'
      rw [hstage']
      exact hagree
    · exact h.sent m hm r hr

theorem Agreeing.frame (h : Agreeing message s) (hsettled : Settled message t)
    (hrecord : t.record = s.record) (hsent : t.sent = s.sent)
    (hconnections : ∀ w ∈ t.workers, w.connection < t.connections)
    (hcur : ∀ k ∈ t.connection, k < t.connections)
    (hworkers : ∀ w ∈ t.workers, some w.connection = t.connection → w.stage.pastLoad = true →
      w ∈ s.workers ∧ some w.connection = s.connection) : Agreeing message t := by
  refine ⟨hsettled, hconnections, hcur, fun r hr w hw hlive hpast => ?_, hsent ▸ h.sent⟩
  obtain ⟨hold, hlive⟩ := hworkers w hw hlive hpast
  refine h.live r ?_ w hold hlive hpast
  unfold terminalRecord at hr ⊢
  rwa [← hrecord]

theorem Agreeing.step {e : DirectiveAgentEvent} (h : Agreeing message s) (hok : unrivalled s e)
    (hst : s.step message e = some t) : Agreeing message t := by
  have hsettled := h.toSettled.step hst
  cases e with
  | connect =>
    cases hst
    refine h.frame hsettled rfl rfl (fun w hw => Nat.lt_succ_of_lt (h.connections w hw))
      (fun k hk => ?_) fun w hw hlive _ => ?_
    · rw [← Option.some.inj hk]
      exact Nat.lt_succ_self _
    -- no worker has the number of the new connection
    have hnew : w.connection = s.connections := Option.some.inj hlive
    have hold := h.connections w hw
    omega
  | disconnect =>
    cases hst
    exact h.frame hsettled rfl rfl h.connections nofun nofun
  | crash =>
    cases hst
    exact h.frame hsettled rfl rfl nofun nofun nofun
  | deliver =>
    simp only [DirectiveAgent.step] at hst
    split at hst
    · rename_i k hk
      split at hst
      · cases hst
        exact h
      cases hst
      refine h.frame hsettled rfl rfl (fun w hw => ?_) h.current fun w hw hlive hpast => ?_
      · rcases mem_append.mp hw with hw | hw
        · exact h.connections w hw
        · rw [mem_singleton.mp hw]
          exact h.current k hk
      · rcases mem_append.mp hw with hw | hw
        · exact ⟨hw, hlive⟩
        · rw [mem_singleton.mp hw] at hpast
          cases hpast
    · cases hst
  | work i fails execution =>
    simp only [DirectiveAgent.step] at hst
    split at hst
    · rename_i w hw
      split at hst
      · cases hst
        refine h.frame hsettled rfl rfl (fun x hx => ?_) h.current fun x hx hlive hpast => ?_
        · rcases mem_set_workers hx with rfl | ⟨j, -, hj⟩
          · exact h.connections w (mem_of_getElem? hw)
          · exact h.connections x (mem_of_getElem? hj)
        · rcases mem_set_workers hx with rfl | ⟨j, -, hj⟩
          · cases hpast
          · exact ⟨mem_of_getElem? hj, hlive⟩
      · rename_i hfails
        cases hst
        have hfails : fails = false := Bool.not_eq_true _ ▸ hfails
        exact h.applyStep hw (hfails ▸ hok)
    · cases hst

/-- Results are durable while no rival stores one. -/
theorem durable_of_reach (h : Reach (step message) Initial unrivalled s) : Durable s := by
  have hagree : Agreeing message s := by
    refine h.invariant ?_ fun _ _ _ hs hok hst => hs.step hok hst
    rintro _ rfl
    exact ⟨⟨nofun, nofun, nofun⟩, nofun, nofun, nofun, nofun⟩
  exact ⟨fun r hr => (hagree.stored r hr).2, hagree.sent⟩

/-! ## Two workers -/

def after (ok : DirectiveAgent → DirectiveAgentEvent → Prop) [∀ s e, Decidable (ok s e)]
    (script : List DirectiveAgentEvent) : DirectiveAgent :=
  reached (step ⟨"operation", "ledger-uid"⟩) ok {} (script.map fun e _ => e)

def executed (status : ConditionStatus) : Execution :=
  { conditions := [{ type := "Succeeded", status := status, reason := "JobFinished", message := ""
                     lastTransitionTime := second + 500000000 }] }

def calls (worker count : Nat) (status : ConditionStatus) : List DirectiveAgentEvent :=
  List.replicate count (.work worker false (executed status))

/-- The directive succeeds, and the connection is lost while its result is being stored.  The
worker of the next connection still finds the operation running; then the result is stored,
and the second worker executes the directive again, which fails. -/
def rivals : DirectiveAgent :=
  after anyStep ([.connect, .deliver] ++ calls 0 6 .true ++ [.disconnect, .connect, .deliver] ++
      calls 1 1 .false ++ calls 0 1 .true ++ calls 1 5 .false)

theorem rivals_disagree : Reach (step ⟨"operation", "ledger-uid"⟩) Initial anyStep rivals ∧
      ¬ Durable rivals := by
  unfold rivals after
  exact played (P := fun s : DirectiveAgent => ¬ Durable s) rfl (by decide +kernel)

/-- The result is stored before the worker of the next connection asks, and sent by it. -/
def replayed : DirectiveAgent :=
  after unrivalled ([.connect, .deliver] ++ calls 0 6 .true ++ [.disconnect, .connect, .deliver] ++
      calls 0 1 .true ++ calls 1 2 .false)

/-- A result was sent after one was stored. -/
def Replays (s : DirectiveAgent) : Prop := s.sent.any (·.recorded.isSome) = true
deriving Decidable

theorem replayed_reach : Reach (step ⟨"operation", "ledger-uid"⟩) Initial unrivalled replayed ∧
      Replays replayed := by
  unfold replayed after
  exact played (P := Replays) rfl (by decide +kernel)

theorem replayed_durable : Replays replayed ∧ Durable replayed :=
  ⟨replayed_reach.2, durable_of_reach replayed_reach.1⟩

theorem replayed_terminal : ∃ r ∈ replayed.terminals, replayed.record.map (·.value) = some r := by
  obtain ⟨r, hr⟩ := exists_mem_of_ne_nil replayed.terminals (by decide +kernel)
  exact ⟨r, hr, terminal_stays replayed_reach.1 r hr⟩

end DirectiveAgent

end Mspsql
