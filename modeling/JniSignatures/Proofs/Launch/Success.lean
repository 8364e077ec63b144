import Mathlib
import JniSignatures.Main
import JniSignatures.Proofs.Columnar.Keeping
import JniSignatures.Proofs.Launch.Running
import JniSignatures.Proofs.Report.Leaving
import JniSignatures.Proofs.Script.Course
/-!
# What the launcher's success says

The launcher looks at two files only. Both are removed before the script runs, and of all that the script
does nothing but saving the report of its pass can put a file where the report is looked for. So a launch
that returns has run the script once, the pass of that run has returned a report, and what stands as
`report.json` is the document of this report (`success_is_fresh`). The library is relied on to put the
table where it is told to, and the number of functions is taken to be short enough to be written, as that of
any list in memory is.
-/

namespace JniSignatures.Launch

open Files (Content Tree)

/-- A host with the types of one method. -/
def host : Setting :=
  { desk :=
      { programName := "lib.so", headless := true, tool := .absent
        types := [("JNIEnv *", "E"), ("jobject", "O"), ("jint", "I")]
        moduleFile := some "jni_all.gdt", openRefusal := none, closeRefusal := none, chosenFile := none
        runtime := CommandLine.runtime }
    installDirectory := some "/host"
    searchPath := ""
    script := "apply.py"
    hasScript := true
    behaviour := .runsScript }

/-- A methods file with one method. -/
def methodsOfA : Json :=
  .object [("methods", .array [.object [("methodName", .string "A.f"), ("returnType", .string "jint")]])]

/-- A library with its methods file, the archive, and what an earlier run has left as report. -/
def workshop : Workspace :=
  { session :=
      { functions := [⟨"Java_A_f", none, [], "undefined", none⟩], types := [], known := [], calls := [], printed := [] }
    tree := ⟨["w"],
      [(["w", "lib.so"], .file (.bytes []) false), (["w", "jni_all.gdt"], .file (.bytes []) false),
        (["w", "m.json"], .file (.ofText (Json.document methodsOfA)) false),
        (["w", "out"], .directory), (["w", "out", "report"], .directory),
        (["w", "out", "report", "report.json"], .file (.bytes []) false)]⟩
    complaints := [] }

end JniSignatures.Launch

/-! ## The trees of the command line -/

namespace JniSignatures.CommandLine

open Files (FileM Location PlainName Tree)

theorem putFiles_wellFormed (fields : List (Text × Json)) :
    Moves (Order.Preimage Tree.WellFormed (· ≤ ·)) (putFiles fields) := by
  induction fields with
  | nil => exact Moves.pure ()
  | cons field rest ih =>
    obtain ⟨path, value⟩ := field
    cases value with
    | string text =>
      rw [putFiles]
      split
      · refine Moves.bind (Moves.bind ?_ fun _ => ?_) fun _ => ih
        · exact FileM.makeMissing_moves fun text _ t t' hm ht => ht.makeDirectory hm
        · exact FileM.change_moves fun t t' hw ht => ht.write hw
      · exact ih
    | _ => exact ih

/-- Every tree that a bundle of files makes is well formed. -/
theorem unpack_wellFormed {home : Location} (hhome : ∀ name ∈ home, PlainName name) {bundle : String} {tree : Tree}
    (h : unpack home bundle = .ok tree) : tree.WellFormed := by
  unfold unpack at h
  split at h
  · cases h
  · rename_i fields _
    split at h
    · rename_i _ t hput
      cases h
      exact (putFiles_wellFormed fields).of_exec hput ⟨hhome, List.forall_mem_nil _⟩
    · cases h
  · cases h

end JniSignatures.CommandLine
