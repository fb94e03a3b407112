import TxLoad.Stats.Summary
import TxLoad.Config.Basic

namespace TxLoad

/-!
# Where summaries are kept

The summary of a run is written to a file if the configuration names one.
-/

/-- The files that can be written: nothing against the given path, or the reason why it cannot. -/
abbrev Storage := String → Except String Unit

namespace Storage

/-- A storage in which every file can be written. -/
def unlimited : Storage := fun _ => .ok ()

/-- Writes the summary where the configuration says: the text that was written, if any. -/
def keep (storage : Storage) (cfg : Config) (s : Summary) : Except Error (Option String) :=
  match cfg.statsOutput with
  | none => .ok none
  | some path =>
    match storage path with
    | .ok () => .ok (some s.table)
    | .error reason => .error (.io reason)

/-- The result of a run that ends with the given summary, and the text that was written. -/
def conclude (storage : Storage) (cfg : Config) (s : Summary) :
    Except Error Summary × Option String :=
  match keep storage cfg s with
  | .ok file => (.ok s, file)
  | .error e => (.error e, none)

/-- What was written is the table of the summary that is the result. -/
theorem conclude_snd {storage : Storage} {cfg : Config} {s : Summary} {text : String}
    (h : (conclude storage cfg s).2 = some text) :
    (conclude storage cfg s).1 = .ok s ∧ text = s.table := by
  unfold conclude keep at *
  split at h
  · rename_i file hf
    simp only at h
    subst h
    split at hf
    · cases hf
    · split at hf
      · injection hf with hf
        injection hf with hf
        exact ⟨rfl, hf.symm⟩
      · cases hf
  · cases h

end Storage

end TxLoad
