import Mspsql.Agent.SqlDirectives

/-!
# Orphaned declarations

An agent that executes a database directive compares the declarations with those it finds in
the inventory of its site, reports what is gone and stores the new ones in their place.  The
inventory remembers one specification, and only of this site.
-/

namespace Mspsql

open List

open ExecutorReads (removedDeclarations)

/-- The inventory of a specification, as `reconcileDatabaseInventory` stores it. -/
def PostgresDatabaseSpec.inventory (spec : PostgresDatabaseSpec) : DatabaseInventory where
  schemas := Text.sortText spec.schemas
  roles := Text.sortText (spec.roles.map (·.name))

/-- Schemas and roles as they are named in `OrphanedDeclarations`. -/
def DatabaseInventory.declarations (inventory : DatabaseInventory) : List String :=
  inventory.schemas.map ("schema:" ++ ·) ++ inventory.roles.map ("role:" ++ ·)

/-- An execution of a database directive that stored the inventory. -/
structure DatabaseExecution where
  site : String
  spec : PostgresDatabaseSpec
  /-- The result was recorded; otherwise the agent stopped before. -/
  recorded : Bool

structure OrphanState where
  inventories : SortedMap String DatabaseInventory := ∅
  orphanedDeclarations : List String := []

def OrphanState.execute (s : OrphanState) (e : DatabaseExecution) : OrphanState where
  inventories := s.inventories.insert e.site e.spec.inventory
  orphanedDeclarations :=
    if e.recorded then
      removedDeclarations ((s.inventories.get? e.site).getD {}) e.spec.inventory
    else s.orphanedDeclarations

def executions (history : List DatabaseExecution) : OrphanState :=
  history.foldl OrphanState.execute {}

/-- What the specifications declared that were executed successfully.  An execution that stored the
inventory and stopped before its result is none of them. -/
def everDeclared (history : List DatabaseExecution) : List String :=
  (history.filter (·.recorded)).flatMap (·.spec.inventory.declarations)

/-- What the specification declared that a site executed last. -/
def lastDeclared (history : List DatabaseExecution) (site : String) : List String :=
  ((history.reverse.find? (·.site = site)).map (·.spec.inventory.declarations)).getD []

theorem inventories_executions (history : List DatabaseExecution) (site : String) :
    (((executions history).inventories.get? site).getD {}).declarations =
      lastDeclared history site := by
  induction history using List.reverseRecOn with
  | nil => rfl
  | append_singleton earlier e ih =>
    rw [executions, foldl_append, foldl_cons, foldl_nil, OrphanState.execute,
      SortedMap.get?_insert, lastDeclared, reverse_append, reverse_singleton,
      singleton_append]
    by_cases hsite : e.site = site
    · simp [hsite]
    · simpa [hsite, lastDeclared, executions] using ih

theorem mem_removedDeclarations {previous current : DatabaseInventory} {text : String} :
    text ∈ removedDeclarations previous current ↔
      text ∈ previous.declarations ∧ text ∉ current.declarations := by
  have hkinds (a b : String) : "schema:" ++ a ≠ "role:" ++ b := by
    intro h
    have := congrArg String.toList h
    simp at this
  have hschema (a b : String) : "schema:" ++ a = "schema:" ++ b ↔ a = b := String.append_right_inj _
  have hrole (a b : String) : "role:" ++ a = "role:" ++ b ↔ a = b := String.append_right_inj _
  simp only [removedDeclarations, Text.mem_sortText, DatabaseInventory.declarations, mem_append]
  grind

/-- After a recorded execution the orphaned declarations are what some earlier specification
declared and this one does not, exactly if the specification that the site executed last tells
them. -/
theorem orphaned_exact_iff (history : List DatabaseExecution) (site : String)
    (spec : PostgresDatabaseSpec) :
    (∀ text, text ∈ (executions (history ++ [⟨site, spec, true⟩])).orphanedDeclarations ↔
        text ∈ everDeclared history ∧ text ∉ spec.inventory.declarations) ↔
      ∀ text, text ∉ spec.inventory.declarations →
        (text ∈ lastDeclared history site ↔ text ∈ everDeclared history) := by
  have hreported (text : String) :
      text ∈ (executions (history ++ [⟨site, spec, true⟩])).orphanedDeclarations ↔
        text ∈ lastDeclared history site ∧ text ∉ spec.inventory.declarations := by
    rw [← inventories_executions, ← mem_removedDeclarations, executions, foldl_append]
    rfl
  grind

/-- A schema that was dropped from the specification is forgotten by the next execution. -/
theorem quotaEdit_forgets :
    let wide : PostgresDatabaseSpec := { databaseName := "app", schemas := ["audit", "main"] }
    let narrow : PostgresDatabaseSpec := { databaseName := "app", schemas := ["main"] }
    let edited := { narrow with quotas := { connectionLimit := some 20 } }
    let history := [⟨"site-1", wide, true⟩, ⟨"site-1", narrow, true⟩]
    "schema:audit" ∈ everDeclared history ∧ "schema:audit" ∉ edited.inventory.declarations ∧
      (executions history).orphanedDeclarations = ["schema:audit"] ∧
      (executions (history ++ [⟨"site-1", edited, true⟩])).orphanedDeclarations = [] := by
  decide

end Mspsql
