import Mathlib.Data.List.Basic

/-!
# Scripts of psql

A script is a list of commands that psql runs one after the other with `ON_ERROR_STOP`: the
first command that fails ends it with status 3, and a script that comes to its end has status
0.  `\quit` ends a script with status 0 whatever its argument is.  Between `\if` and `\endif`
only the commands of the branch that was taken are run.

What the server does is a parameter: which commands it refuses and what a query with one
boolean column answers.
-/

namespace Psql

open List

inductive Command where
  | statement (text : String)
  /-- A query whose results are run as statements. -/
  | gexec (text : String)
  /-- A query whose result is kept in a variable. -/
  | gset (text name : String)
  | cond (name : String)
  | otherwise
  | endif
  | quit (argument : Nat)
  | connect (database : String)
  | getenv (name environment : String)
  | pset (option value : String)
  /-- Send results to a file, or back to the terminal. -/
  | output (file : Option String)
deriving DecidableEq, Repr

namespace Command

def sql? : Command → Option String
  | .statement text | .gexec text | .gset text _ => some text
  | _ => none

def remote : Command → Bool
  | .connect _ => true
  | c => c.sql?.isSome

/-- Neither a branch nor an end. -/
def plain : Command → Bool
  | .cond _ | .otherwise | .endif | .quit _ => false
  | _ => true

end Command

def statements (script : List Command) : List String := script.filterMap Command.sql?

structure Server where
  refuses : Command → Bool
  answer : String → Bool

inductive Branch where
  | taken
  /-- Not taken, and what follows `\else` is. -/
  | skipped
  /-- Not taken, with all that follows up to `\endif`. -/
  | passed
deriving DecidableEq, Repr

structure Session where
  values : List (String × Bool) := []
  branches : List Branch := []
  file : Option String := none
  /-- The SQL that was executed. -/
  executed : List String := []
  /-- The files that were written, with the SQL whose result went there. -/
  written : List (String × String) := []
  /-- The exit status, once the script has ended. -/
  status : Option Nat := none
deriving DecidableEq, Repr

namespace Session

def active (s : Session) : Bool := s.branches.all (· = .taken)

def value (s : Session) (name : String) : Bool := (s.values.lookup name).getD false

/-- One statement has been executed. -/
def record (s : Session) (text : String) : Session :=
  { s with
    executed := s.executed ++ [text]
    written := s.written ++ (s.file.map (·, text)).toList }

/-- The effect of a command that does not fail. -/
def perform (server : Server) (s : Session) : Command → Session
  | .statement text | .gexec text => s.record text
  | .gset text name => { s.record text with values := (name, server.answer text) :: s.values }
  | .quit _ => { s with status := some 0 }
  | .output file => { s with file := file }
  | _ => s

def exec (server : Server) (s : Session) (c : Command) : Session :=
  if s.status.isSome then s
  else match c with
  | .cond name =>
    { s with branches := (if s.active = false then .passed
        else if s.value name then .taken else .skipped) :: s.branches }
  | .otherwise =>
    match s.branches with
    | .taken :: rest => { s with branches := .passed :: rest }
    | .skipped :: rest => { s with branches := .taken :: rest }
    | _ => s
  | .endif => { s with branches := s.branches.tail }
  | c =>
    if s.active = false then s
    else if c.remote ∧ server.refuses c then { s with status := some 3 }
    else s.perform server c

def run (server : Server) (s : Session) (script : List Command) : Session :=
  script.foldl (exec server) s

def exit (s : Session) : Nat := s.status.getD 0

theorem run_append (server : Server) (s : Session) (a b : List Command) :
    run server s (a ++ b) = run server (run server s a) b :=
  foldl_append

theorem run_of_ended (server : Server) {s : Session} (h : s.status.isSome = true)
    (script : List Command) : run server s script = s := by
  induction script with
  | nil => rfl
  | cons c rest ih =>
    have hc : exec server s c = s := by
      unfold exec
      rw [if_pos h]
    show run server (exec server s c) rest = s
    rw [hc, ih]

/-! ## Plain commands -/

theorem exec_plain (server : Server) {s : Session} {c : Command} (hs : s.status = none)
    (hactive : s.active = true) (hplain : c.plain = true) :
    exec server s c = if c.remote ∧ server.refuses c then { s with status := some 3 }
      else s.perform server c := by
  unfold exec
  rw [hs, if_neg (by simp)]
  cases c with
  | cond | otherwise | endif | quit => cases hplain
  | _ =>
    dsimp only
    rw [hactive, if_neg (by simp)]

theorem perform_plain (server : Server) (s : Session) {c : Command} (hplain : c.plain = true) :
    (s.perform server c).branches = s.branches ∧ (s.perform server c).status = s.status ∧
      (s.perform server c).executed = s.executed ++ c.sql?.toList := by
  cases c with
  | quit => cases hplain
  | statement text | gexec text | gset text name => exact ⟨rfl, rfl, rfl⟩
  | _ => exact ⟨rfl, rfl, (append_nil _).symm⟩

theorem statements_cons (c : Command) (rest : List Command) :
    statements (c :: rest) = c.sql?.toList ++ statements rest := by
  unfold statements
  cases h : c.sql? with
  | none => rw [filterMap_cons_none h]; rfl
  | some text => rw [filterMap_cons_some h]; rfl

inductive Ran (s t : Session) (script : List Command) : Prop where
  | completed (status : t.status = none) (branches : t.branches = s.branches)
      (executed : t.executed = s.executed ++ statements script)
  /-- A command failed; if only SQL needs the server, some of it was not executed. -/
  | failed (status : t.status = some 3)
      (executed : (∀ c ∈ script, c.remote = true → c.sql?.isSome = true) →
        t.executed.length < s.executed.length + (statements script).length)

theorem run_plain (server : Server) {s : Session} {script : List Command}
    (hs : s.status = none) (hactive : s.active = true)
    (hplain : ∀ c ∈ script, c.plain = true) : Ran s (run server s script) script := by
  induction script generalizing s with
  | nil => exact .completed hs rfl (append_nil _).symm
  | cons c rest ih =>
    obtain ⟨hc, hrest⟩ := forall_mem_cons.mp hplain
    obtain ⟨hbranches, hstatus, hexecuted⟩ := perform_plain server s hc
    show Ran s (run server (exec server s c) rest) (c :: rest)
    rw [exec_plain server hs hactive hc]
    by_cases hrefused : c.remote = true ∧ server.refuses c = true
    · rw [if_pos hrefused, run_of_ended server rfl]
      refine .failed rfl fun hsql => ?_
      obtain ⟨text, htext⟩ := Option.isSome_iff_exists.mp (hsql c mem_cons_self hrefused.1)
      simp [statements_cons, htext]
    · rw [if_neg hrefused]
      have hactive' : (s.perform server c).active = true := by
        unfold active
        rwa [hbranches]
      cases ih (hstatus.trans hs) hactive' hrest with
      | completed hdone hsame hall =>
        refine .completed hdone (hsame.trans hbranches) ?_
        rw [hall, hexecuted, statements_cons, append_assoc]
      | failed hfailed hshort =>
        refine .failed hfailed fun hsql => ?_
        have := hshort fun c' hc' => hsql c' (mem_cons_of_mem c hc')
        rw [hexecuted, length_append] at this
        rw [statements_cons, length_append]
        omega

theorem run_silent (server : Server) {s : Session} {script : List Command}
    (hs : s.status = none) (hactive : s.active = true) (hfile : s.file = none)
    (hplain : ∀ c ∈ script, c.plain = true) (hsilent : ∀ c ∈ script, ∀ file, c ≠ .output file) :
    (run server s script).written = s.written ∧ (run server s script).file = none := by
  induction script generalizing s with
  | nil => exact ⟨rfl, hfile⟩
  | cons c rest ih =>
    obtain ⟨hc, hrest⟩ := forall_mem_cons.mp hplain
    obtain ⟨hbranches, hstatus, -⟩ := perform_plain server s hc
    have hkept : (s.perform server c).written = s.written ∧ (s.perform server c).file = none := by
      cases c with
      | output file => exact absurd rfl (hsilent _ mem_cons_self file)
      | statement | gexec | gset => simp [perform, record, hfile]
      | _ => exact ⟨rfl, hfile⟩
    show (run server (exec server s c) rest).written = s.written ∧
      (run server (exec server s c) rest).file = none
    rw [exec_plain server hs hactive hc]
    by_cases hrefused : c.remote = true ∧ server.refuses c = true
    · rw [if_pos hrefused, run_of_ended server rfl]
      exact ⟨rfl, hfile⟩
    rw [if_neg hrefused]
    have hactive' : (s.perform server c).active = true := by
      unfold active
      rwa [hbranches]
    obtain ⟨hwritten, hclosed⟩ := ih (hstatus.trans hs) hactive' hkept.2 hrest
      fun c' hc' => hsilent c' (mem_cons_of_mem c hc')
    exact ⟨hwritten.trans hkept.1, hclosed⟩

/-! ## Guards -/

end Session

/-- Go on only if a query says so. -/
def guard (text name : String) : List Command :=
  [.gset text name, .cond name, .otherwise, .quit 1, .endif]

namespace Session

/-- How a guard ends. -/
inductive Guarded (server : Server) (text : String) (s t : Session) : Prop where
  | refused (status : t.status = some 3) (executed : t.executed = s.executed)
      (written : t.written = s.written)
  | passed (answer : server.answer text = true) (status : t.status = none)
      (branches : t.branches = s.branches) (executed : t.executed = s.executed ++ [text])
      (written : t.written = (s.record text).written) (file : t.file = s.file)
  | ended (answer : server.answer text = false) (status : t.status = some 0)
      (executed : t.executed = s.executed ++ [text])
      (written : t.written = (s.record text).written)

theorem run_guard (server : Server) {s : Session} (text name : String) (hs : s.status = none)
    (hactive : s.active = true) : Guarded server text s (run server s (guard text name)) := by
  have hfirst := exec_plain server hs hactive (c := .gset text name) rfl
  show Guarded server text s (run server (exec server s (.gset text name))
    [.cond name, .otherwise, .quit 1, .endif])
  rw [hfirst]
  by_cases hrefused : server.refuses (.gset text name) = true
  · rw [if_pos ⟨rfl, hrefused⟩]
    exact .refused rfl rfl rfl
  rw [if_neg fun h => hrefused h.2]
  unfold active at hactive
  cases hanswer : server.answer text with
  | true =>
    refine .passed hanswer ?_ ?_ ?_ ?_ ?_ <;>
      simp [run, exec, perform, record, value, active, hs, hactive, hanswer]
  | false =>
    refine .ended hanswer ?_ ?_ ?_ <;>
      simp [run, exec, perform, record, value, active, hs, hactive, hanswer, Command.remote,
        Command.sql?]

end Session

end Psql
