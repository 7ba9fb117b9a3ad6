import Mspsql.Lib.Machine
import Mspsql.Lib.SortedMap

/-!
# Plan workers of a stream

An agent starts a worker for each plan it receives and cancels the one of an older plan of the
instance.  The reports of workers that have returned come in any order, and the loop tells them
apart by instance and revision only.

A worker reports what goes wrong with its plan to the hub and goes on.  It returns an error only
when it is cancelled or cannot send, and with an error of the second kind the loop returns and
cancels every worker, whichever worker it came from (`lateFailure_cancels`).
-/

namespace Mspsql

/-- What `Reconciler.Apply` gives: an error, or a result with its phase. -/
inductive ApplyOutcome where
  | error
  | ready
  | deleted
  | pending
deriving DecidableEq

/-- The call that `applyPlan` makes next. -/
inductive PlanStage where
  | decode
  | load
  | store
  | reject
  | acknowledge
  | apply (resultReported : Bool)
  | progress (outcome : ApplyOutcome) (resultReported : Bool)
  | result (outcome : ApplyOutcome)
  /-- `select` between the context and the timer of the next attempt. -/
  | wait (resultReported : Bool)
deriving DecidableEq

/-- How `applyPlan` returns: without an error, with that of its context, or with that of a
`Send`. -/
inductive WorkerResult where
  | done
  | canceled
  | unsent
deriving DecidableEq

/-- `applyPlan` from one call to the next.  `ok` says whether the call succeeds, and which case
the `select` takes; the context can be done by the loop or with the context of the stream.  An
error of `Apply` is sent as progress like any other phase. -/
def PlanStage.next (ok : Bool) (outcome : ApplyOutcome) : PlanStage → PlanStage ⊕ WorkerResult
  | .decode => .inl (if ok then .load else .reject)
  | .load => .inl (if ok then .store else .reject)
  | .store => .inl (if ok then .acknowledge else .reject)
  | .reject => .inr (if ok then .done else .unsent)
  | .acknowledge => if ok then .inl (.apply false) else .inr .unsent
  | .apply resultReported => .inl (.progress outcome resultReported)
  | .progress outcome resultReported =>
    if ok = false then .inr .unsent
    else if (outcome = .ready ∨ outcome = .deleted) ∧ resultReported = false then
      .inl (.result outcome)
    else .inl (.wait resultReported)
  | .result outcome =>
    if ok = false then .inr .unsent
    else if outcome = .deleted then .inr .done
    else .inl (.wait true)
  | .wait resultReported => if ok then .inl (.apply resultReported) else .inr .canceled

def PlanStage.sends : PlanStage → Bool
  | .reject | .acknowledge | .progress _ _ | .result _ => true
  | _ => false

theorem PlanStage.next_unsent {stage : PlanStage} {ok : Bool} {outcome : ApplyOutcome}
    (h : stage.next ok outcome = .inr .unsent) : stage.sends = true ∧ ok = false := by
  cases stage <;> grind [PlanStage.next, PlanStage.sends]

structure PlanWorker where
  instanceUID : String
  revision : Int
  cancelled : Bool := false
  /-- The next call, or the last one when the worker has returned. -/
  stage : PlanStage := .decode
  result : Option WorkerResult := none
  reported : Bool := false
deriving DecidableEq

def PlanWorker.advance (ok : Bool) (outcome : ApplyOutcome) (w : PlanWorker) : PlanWorker :=
  match w.stage.next ok outcome with
  | .inl stage => { w with stage := stage }
  | .inr result => { w with result := some result }

/-- Neither finished nor cancelled. -/
def PlanWorker.live (w : PlanWorker) : Bool := w.result.isNone && !w.cancelled

theorem PlanWorker.advance_spec {w : PlanWorker} (h : w.result = none) (ok : Bool)
    (outcome : ApplyOutcome) :
    (w.advance ok outcome).instanceUID = w.instanceUID ∧
    (w.advance ok outcome).revision = w.revision ∧
    ((w.advance ok outcome).live = true → w.live = true) ∧
    ((w.advance ok outcome).result = some .unsent → w.stage.sends = true ∧
      (w.advance ok outcome).stage = w.stage) := by
  unfold PlanWorker.advance
  split
  · simp [h, PlanWorker.live]
  · rename_i hnext
    refine ⟨rfl, rfl, by simp [PlanWorker.live], fun hunsent => ?_⟩
    rw [Option.some.inj hunsent] at hnext
    exact ⟨(PlanStage.next_unsent hnext).1, rfl⟩

/-- The loop of `Run` on one stream. -/
structure PlanStream where
  started : List PlanWorker := []
  /-- The revision and the worker whose cancel function is kept. -/
  workers : SortedMap String (Int × Nat) := ∅
  received : List (String × Int) := []
  returned : Bool := false

inductive WorkerEvent where
  | plan (instanceUID : String) (revision : Int)
  /-- A worker makes its next call. -/
  | work (worker : Nat) (ok : Bool) (outcome : ApplyOutcome)
  | report (worker : Nat)
  /-- The loop returns for another reason. -/
  | stop
deriving DecidableEq

namespace PlanStream

open Machine

def update (started : List PlanWorker) (k : Nat) (f : PlanWorker → PlanWorker) : List PlanWorker :=
  started.mapIdx fun j w => if j = k then f w else w

/-- The loop returns: the workers of the map are cancelled. -/
def leave (s : PlanStream) : PlanStream :=
  { s with
    returned := true
    started := s.started.mapIdx fun k w =>
      if (s.workers.get? w.instanceUID).any (·.2 = k) then { w with cancelled := true } else w }

def start (s : PlanStream) (instanceUID : String) (revision : Int) : PlanStream :=
  { s with
    started := s.started ++ [{ instanceUID, revision }]
    workers := s.workers.insert instanceUID (revision, s.started.length) }

def receivePlan (s : PlanStream) (instanceUID : String) (revision : Int) : PlanStream :=
  match s.workers.get? instanceUID with
  | none => s.start instanceUID revision
  | some (current, k) =>
    if current ≥ revision then s
    else start { s with started := update s.started k ({ · with cancelled := true }) }
      instanceUID revision

def receiveReport (s : PlanStream) (k : Nat) (w : PlanWorker) : PlanStream :=
  { s with
    started := update s.started k ({ · with reported := true })
    workers := if (s.workers.get? w.instanceUID).any (·.1 = w.revision) then
      s.workers.erase w.instanceUID else s.workers }

def step (s : PlanStream) : WorkerEvent → Option PlanStream
  | .plan instanceUID revision =>
    if s.returned then none
    else some { s.receivePlan instanceUID revision with
      received := (instanceUID, revision) :: s.received }
  | .work k ok outcome =>
    match s.started[k]? with
    | none => none
    | some w => if w.result.isSome then none
      else some { s with started := update s.started k (PlanWorker.advance ok outcome) }
  | .report k =>
    match s.started[k]? with
    | none => none
    | some w =>
      if s.returned ∨ w.result = none ∨ w.reported then none
      else if w.result = some .unsent then some (s.receiveReport k w).leave
      else some (s.receiveReport k w)
  | .stop => if s.returned then none else some s.leave

/-- The revisions of an instance increase. -/
def increasing (s : PlanStream) : WorkerEvent → Prop
  | .plan instanceUID revision => ∀ p ∈ s.received, p.1 = instanceUID → p.2 < revision
  | _ => True

instance (s : PlanStream) (e : WorkerEvent) : Decidable (increasing s e) := by
  cases e <;> unfold increasing <;> infer_instance

/-- At most one worker of an instance is live, for the highest revision received. -/
def Exclusive (s : PlanStream) : Prop :=
  ∀ k : Nat, ∀ w ∈ s.started[k]?, w.live = true →
    (∀ j : Nat, ∀ v ∈ s.started[j]?, v.live = true → v.instanceUID = w.instanceUID → j = k) ∧
    ∀ p ∈ s.received, p.1 = w.instanceUID → p.2 ≤ w.revision

/-- The report of another worker than the one of the map leaves that one in the map, and alone
unless a `Send` has failed and the loop returns. -/
def Undisturbed (s t : PlanStream) (k : Nat) : Prop :=
  ∀ w ∈ s.started[k]?, ∀ e ∈ s.workers.get? w.instanceUID, e.2 ≠ k →
    t.workers.get? w.instanceUID = some e ∧
      (t.started[e.2]? = s.started[e.2]? ∨
        w.stage.sends = true ∧ w.result = some .unsent ∧ t.returned = true)

structure Consistent (s : PlanStream) : Prop where
  live : ∀ k : Nat, ∀ w ∈ s.started[k]?, w.live = true →
    s.workers.get? w.instanceUID = some (w.revision, k)
  entry : ∀ uid, ∀ e ∈ s.workers.get? uid, ∃ w ∈ s.started[e.2]?,
    w.instanceUID = uid ∧ w.revision = e.1
  highest : ∀ uid, ∀ e ∈ s.workers.get? uid, ∀ p ∈ s.received, p.1 = uid → p.2 ≤ e.1
  known : ∀ k : Nat, ∀ w ∈ s.started[k]?, (w.instanceUID, w.revision) ∈ s.received
  distinct : ∀ j k : Nat, ∀ v ∈ s.started[j]?, ∀ w ∈ s.started[k]?,
    v.instanceUID = w.instanceUID → v.revision = w.revision → j = k
  unsent : ∀ k : Nat, ∀ w ∈ s.started[k]?, w.result = some .unsent → w.stage.sends = true

variable {s t : PlanStream} {e : WorkerEvent} {k : Nat} {w : PlanWorker}

theorem Consistent.exclusive (h : Consistent s) : Exclusive s := by
  intro k w hw hlive
  have hentry := h.live k w hw hlive
  refine ⟨fun j v hv hvlive huid => ?_, h.highest _ _ hentry⟩
  have hother := h.live j v hv hvlive
  rw [huid, hentry, Option.some.injEq, Prod.mk.injEq] at hother
  exact hother.2.symm

theorem Consistent.leave (h : Consistent s) : Consistent s.leave := by
  obtain ⟨live, entry, highest, known, distinct, unsent⟩ := h
  constructor <;> simp only [PlanStream.leave, Option.mem_def] at * <;>
    grind [PlanWorker.live]

theorem Consistent.work (h : Consistent s) (hw : s.started[k]? = some w) (hnone : w.result = none)
    (ok : Bool) (outcome : ApplyOutcome) :
    Consistent { s with started := update s.started k (PlanWorker.advance ok outcome) } := by
  obtain ⟨live, entry, highest, known, distinct, unsent⟩ := h
  have hspec := PlanWorker.advance_spec hnone ok outcome
  constructor <;> simp only [update] at * <;> grind

theorem Consistent.start {uid : String} {revision : Int} (h : Consistent s)
    (hnew : ∀ p ∈ s.received, p.1 = uid → p.2 < revision)
    (hidle : ∀ k : Nat, ∀ w ∈ s.started[k]?, w.live = true → w.instanceUID ≠ uid) :
    Consistent { s.start uid revision with received := (uid, revision) :: s.received } := by
  obtain ⟨live, entry, highest, known, distinct, unsent⟩ := h
  constructor <;> simp only [PlanStream.start] at *
  case entry =>
    intro other e he
    by_cases hnow : uid = other
    · exact ⟨{ instanceUID := uid, revision }, by grind [SortedMap.get?_insert]⟩
    · grind [SortedMap.get?_insert]
  all_goals grind [SortedMap.get?_insert]

theorem Consistent.receivePlan {uid : String} {revision : Int} (h : Consistent s)
    (hnew : ∀ p ∈ s.received, p.1 = uid → p.2 < revision) :
    Consistent { s.receivePlan uid revision with received := (uid, revision) :: s.received } := by
  unfold PlanStream.receivePlan
  split
  · refine h.start hnew fun k w hw hlive huid => ?_
    have hentry := h.live k w hw hlive
    simp_all
  · rename_i current k hentry
    obtain ⟨w, hw, huid, hrev⟩ := h.entry uid _ hentry
    have hlt : w.revision < revision := hnew _ (h.known _ w hw) huid
    rw [if_neg (by dsimp only at hrev; omega)]
    have hcancel : Consistent { s with
        started := update s.started k ({ · with cancelled := true }) } := by
      obtain ⟨live, entry, highest, known, distinct, unsent⟩ := h
      constructor <;> simp only [update, Option.mem_def] at * <;> grind [PlanWorker.live]
    refine hcancel.start hnew fun j v hv hlive huid => ?_
    -- a live worker of the instance would be the one that was just cancelled
    have hkept := hcancel.live j v hv hlive
    simp only [update, Option.mem_def] at *
    grind [PlanWorker.live]

theorem Consistent.receiveReport (h : Consistent s) (hw : s.started[k]? = some w)
    (hresult : w.result ≠ none) : Consistent (s.receiveReport k w) := by
  obtain ⟨live, entry, highest, known, distinct, unsent⟩ := h
  constructor <;> simp only [PlanStream.receiveReport, update, Option.mem_def] at *
  case live =>
    intro j v hv hlive
    -- the worker that reports is not live, so the entry of a live one is not erased
    have hother : v.instanceUID = w.instanceUID → v.revision ≠ w.revision := by
      intro huid hrev
      obtain rfl : j = k := by grind
      rw [List.getElem?_mapIdx, hw, Option.map_some, if_pos rfl, Option.some.injEq] at hv
      subst hv
      simp [PlanWorker.live, hresult] at hlive
    grind [PlanWorker.live, SortedMap.get?_erase]
  all_goals grind [SortedMap.get?_erase]

theorem Consistent.undisturbed (h : Consistent s) (hst : s.step (.report k) = some t) :
    Undisturbed s t k := by
  intro w hw e he hne
  obtain ⟨v, hv, huid, hrev⟩ := h.entry _ e he
  have hother : ¬ (s.workers.get? w.instanceUID).any (·.1 = w.revision) = true := by
    rw [he]
    intro hsame
    exact hne (h.distinct e.2 k v hv w hw huid (hrev.trans (by simpa using hsame)))
  have hworkers : (s.receiveReport k w).workers = s.workers := if_neg hother
  rw [step, hw] at hst
  dsimp only at hst
  split at hst
  · cases hst
  split at hst <;> obtain rfl := Option.some.inj hst
  · rename_i hunsent
    exact ⟨hworkers ▸ he, .inr ⟨h.unsent k w hw hunsent, hunsent, rfl⟩⟩
  · refine ⟨hworkers ▸ he, .inl ?_⟩
    rw [PlanStream.receiveReport, update, List.getElem?_mapIdx, Option.mem_def.mp hv,
      Option.map_some, if_neg hne]

theorem Consistent.step (h : Consistent s) (hok : increasing s e) (hst : s.step e = some t) :
    Consistent t := by
  cases e with
  | plan uid revision =>
    rw [PlanStream.step] at hst
    split at hst
    · cases hst
    · obtain rfl := Option.some.inj hst
      exact h.receivePlan hok
  | work k ok outcome =>
    rw [PlanStream.step] at hst
    split at hst
    · cases hst
    rename_i hw
    split at hst
    · cases hst
    · obtain rfl := Option.some.inj hst
      exact h.work hw (Option.not_isSome_iff_eq_none.mp ‹_›) ok outcome
  | report k =>
    rw [PlanStream.step] at hst
    split at hst
    · cases hst
    rename_i hw
    split at hst
    · cases hst
    rename_i hopen
    have hreport := h.receiveReport hw fun hnone => hopen (.inr (.inl hnone))
    split at hst <;> obtain rfl := Option.some.inj hst
    · exact hreport.leave
    · exact hreport
  | stop =>
    rw [PlanStream.step] at hst
    split at hst
    · cases hst
    · obtain rfl := Option.some.inj hst
      exact h.leave

theorem exclusive_of_reach (h : Reach step (· = {}) increasing s) :
    Exclusive s ∧ ∀ k t, s.step (.report k) = some t → Undisturbed s t k := by
  have hconsistent : Consistent s := by
    refine h.invariant (fun _ h0 => ?_) fun _ _ _ hinv hok hst => hinv.step hok hst
    rw [h0]
    exact ⟨nofun, nofun, nofun, nofun, nofun, nofun⟩
  exact ⟨hconsistent.exclusive, fun k t hst => hconsistent.undisturbed hst⟩

/-- The worker of revision 1 has applied its plan when revision 2 arrives; `answers` are those to
its last calls. -/
def superseding (answers : List Bool) : List (PlanStream → WorkerEvent) :=
  let work (ok : Bool) (_ : PlanStream) : WorkerEvent := .work 0 ok .error
  (fun _ => .plan "orders" 1) :: .replicate 5 (work true) ++
    (fun _ => .plan "orders" 2) :: answers.map work

def supersededAt (answers : List Bool) : PlanStream :=
  reached step increasing {} (superseding answers)

/-- The first worker has returned with `result`, and its report cancels the second one or
not. -/
def Returns (result : WorkerResult) (cancels : Bool) (s : PlanStream) : Prop :=
  s.started.map (fun w => (w.result, w.live)) = [(some result, false), (none, true)] ∧
    ∃ t ∈ s.step (.report 0), t.started.map (·.cancelled) = [true, cancels]
deriving Decidable

theorem lateReturn_reach : Reach step (· = {}) increasing (supersededAt [true, false]) ∧
    Returns .canceled false (supersededAt [true, false]) :=
  played rfl (by decide +kernel)

theorem lateReturn_exclusive : Exclusive (supersededAt [true, false]) ∧
    ∃ t, (supersededAt [true, false]).step (.report 0) = some t ∧
      Undisturbed (supersededAt [true, false]) t 0 := by
  obtain ⟨hexclusive, hundisturbed⟩ := exclusive_of_reach lateReturn_reach.1
  obtain ⟨t, ht, -⟩ := lateReturn_reach.2.2
  exact ⟨hexclusive, t, ht, hundisturbed 0 t ht⟩

/-- The superseded worker cannot send its progress, and its report cancels the worker of
revision 2. -/
theorem lateFailure_cancels : Reach step (· = {}) increasing (supersededAt [false]) ∧
    Returns .unsent true (supersededAt [false]) :=
  played rfl (by decide +kernel)

end PlanStream

end Mspsql
