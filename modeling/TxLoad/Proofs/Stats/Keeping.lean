import TxLoad.Stats.Storage

namespace TxLoad

/-!
# Keeping a summary

A run ends with a summary, which goes into a file if the configuration names one.

* `Summary.transactions_of`, `Summary.bytes_of`: the totals are in the summary.
* `Storage.Keeps`: what comes of a summary, and of the file that is to hold it.
-/

namespace Summary

@[simp] theorem transactions_of (transactions bytes : UInt64) (elapsed : Nat) :
    (of transactions bytes elapsed).transactions = transactions := by
  unfold of
  simp only
  split <;> rfl

@[simp] theorem bytes_of (transactions bytes : UInt64) (elapsed : Nat) :
    (of transactions bytes elapsed).bytes = bytes := by
  unfold of
  simp only
  split <;> rfl

end Summary

namespace Storage

variable {storage : Storage} {cfg : Config} {s : Summary}

/-- The result of a run with the given summary, and the texts that were written. -/
inductive Keeps (storage : Storage) (cfg : Config) (s : Summary) :
    Except Error Summary → List String → Prop
  /-- The configuration names no file. -/
  | unnamed (hpath : cfg.statsOutput = none) : storage.Keeps cfg s (.ok s) []
  | written {path : String} (hpath : cfg.statsOutput = some path)
    (hstorage : storage path = .ok ()) : storage.Keeps cfg s (.ok s) [s.table]
  /-- The file cannot be written. -/
  | refused {path reason : String} (hpath : cfg.statsOutput = some path)
    (hstorage : storage path = .error reason) : storage.Keeps cfg s (.error (.io reason)) []

theorem keeps_conclude (storage : Storage) (cfg : Config) (s : Summary) :
    storage.Keeps cfg s (storage.conclude cfg s).1 (storage.conclude cfg s).2.toList := by
  unfold conclude keep
  cases hpath : cfg.statsOutput with
  | none => exact .unnamed hpath
  | some path =>
    simp only
    cases hstorage : storage path with
    | ok u => exact .written hpath hstorage
    | error reason => exact .refused hpath hstorage

/-- Keeping the summary in a file does not change it. -/
theorem eq_of_conclude {s' : Summary} (h : (storage.conclude cfg s).1 = .ok s') : s = s' := by
  have hkeeps := storage.keeps_conclude cfg s
  rw [h] at hkeeps
  generalize (storage.conclude cfg s).2.toList = files at hkeeps
  cases hkeeps <;> rfl

/-- No summary is lost but for a file that cannot be written. -/
theorem exists_reason {e : Error} (h : (storage.conclude cfg s).1 = .error e) :
    ∃ reason, e = .io reason := by
  have hkeeps := storage.keeps_conclude cfg s
  rw [h] at hkeeps
  generalize (storage.conclude cfg s).2.toList = files at hkeeps
  cases hkeeps with
  | refused hpath hstorage => exact ⟨_, rfl⟩

/-- A summary that can be kept is the result. -/
theorem Keeps.eq_ok {result : Except Error Summary} {files : List String}
    (h : storage.Keeps cfg s result files)
    (hwritable : ∀ path, cfg.statsOutput = some path → storage path = .ok ()) :
    result = .ok s := by
  cases h with
  | unnamed | written => rfl
  | refused hpath hstorage =>
    rw [hwritable _ hpath] at hstorage
    cases hstorage

end Storage

end TxLoad
