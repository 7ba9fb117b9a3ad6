import Mspsql.Lib.Shell
import Mspsql.Lib.Text
import Mspsql.Plan

/-!
# The restore script

A restore runs pgBackRest from a shell script with one `exec` line.  The backup set is free text
that nothing checks, so the quoting alone keeps it from being read as shell.
-/

namespace Mspsql

def backupStanza (desired : SitePlan) : String :=
  match desired.restore with
  | some restore =>
    if restore.phase = .seed then "mspsql-" ++ restore.sourceInstanceUID
    else "mspsql-" ++ desired.instanceUID
  | none => "mspsql-" ++ desired.instanceUID

/-- The command of `restoreBootstrapConfig`; `format` prints the target time. -/
def restoreArguments (format : Time → String) (desired : SitePlan) (restore : RestorePlan) :
    List String :=
  ["pgbackrest", "--config=/etc/pgbackrest/pgbackrest.conf", "--stanza=" ++ backupStanza desired,
      "--pg1-path=/var/lib/postgresql/data", "--delta", "--type=time",
      "--target=" ++ format restore.targetTime, "--target-action=promote"] ++
    (if restore.backupSet ≠ "" then ["--set=" ++ restore.backupSet] else []) ++ ["restore"]

def restoreLine (format : Time → String) (desired : SitePlan) (restore : RestorePlan) : String :=
  "exec " ++ Text.join " " ((restoreArguments format desired restore).map Shell.quote) ++ "\n"

/-- `restore.sh`. -/
def restoreScript (format : Time → String) (desired : SitePlan) (restore : RestorePlan) : String :=
  "#!/bin/bash\nset -euo pipefail\n" ++ restoreLine format desired restore

theorem toList_join_space {texts : List String} (h : texts ≠ []) :
    ' ' :: (Text.join " " texts).toList = texts.flatMap fun text => ' ' :: text.toList := by
  induction texts with
  | nil => exact absurd rfl h
  | cons text rest ih =>
    cases rest with
    | nil => simp [Text.join]
    | cons next rest =>
      rw [List.flatMap_cons, ← ih (List.cons_ne_nil _ _), Text.join, String.toList_append]
      · simp
      · exact List.cons_ne_nil _ _

/-- After its options the script is one line, from which the shell reads the argument list back,
whatever the texts are. -/
theorem split_restoreLine (format : Time → String) (desired : SitePlan) (restore : RestorePlan) :
    restoreScript format desired restore =
        "#!/bin/bash\nset -euo pipefail\n" ++ restoreLine format desired restore ∧
      Shell.split (restoreLine format desired restore) =
        some ("exec" :: restoreArguments format desired restore) := by
  refine ⟨rfl, ?_⟩
  have hsome : (restoreArguments format desired restore).map Shell.quote ≠ [] := by
    simp [restoreArguments]
  have hline : (restoreLine format desired restore).toList = "exec".toList ++
      ((restoreArguments format desired restore).flatMap (fun text =>
        ' ' :: (Shell.quote text).toList) ++ ['\n']) := by
    have hjoin := toList_join_space hsome
    rw [List.flatMap_map] at hjoin
    rw [restoreLine, ← hjoin]
    simp
  have hexec : ∀ rest, Shell.words .plain none ("exec".toList ++ rest) =
      Shell.words .plain (some "exec".toList) rest := fun _ => rfl
  rw [Shell.split, hline, hexec, Shell.words_line]
  simp

end Mspsql
