import ProofOfWork.Proofs.DagFile.Working

/-! What the opening of a DAG file answers. A file that is there is judged by its size and its first
bytes, and is not changed. Where there is none, the answer is never that of a file that was there. -/

namespace ProofOfWork

open Files DagFile

namespace Works

variable {σ τ : Type} {disk : σ → Disk} {told : σ → τ}
  {serve : (r : Files.Request) → StateM σ (Files.Answer r)} (hworks : Works disk told serve)
  {E : Error → σ → Prop} {d : Disk} {t : τ} {s : σ} {place : Place} {size : UInt64}

include hworks

/-- Where a file can be opened its directory is there, and nothing at all is changed. -/
theorem prepare_of_file {id : Nat} (h : Sees disk told d t s) (hjoin : place.join = Path.join)
    (hopen : d.openExisting place.path true true = .ok ⟨.file id, true, true⟩)
    (hlt : (d.file id).size < 2 ^ 64) :
    Yields (.of (.of serve) E)
      (fun memo s' => Sees disk told d t s' ∧
        memo = judged size ⟨.file id, true, true⟩ (d.file id).bytes)
      (DagFile.prepare place size false) s := by
  obtain ⟨_, -, hresolve, -⟩ := Disk.openExisting_write_eq_ok hopen
  rw [Place.path, hjoin, path] at hresolve
  obtain ⟨hthere, hdir⟩ := Disk.isDirectory_of_resolve_join (isName_name _ _) hresolve
  exact hworks.prepare_opened h (Disk.makeDirectories_of_isDirectory hthere hdir) hopen hlt

theorem prepare_of_no_file (h : Sees disk told d t s)
    (hnone : ∀ id, d.lookup place.path.location ≠ some (.file id)) :
    Yields (.of (.of serve) fun _ _ => True) (fun memo _ => IsCreated memo)
      (DagFile.prepare place size false) s := by
  obtain ⟨answer, d₁, hmade⟩ : ∃ answer d₁, d.makeDirectories place.dir = (answer, d₁) :=
    ⟨_, _, rfl⟩
  have hsame := Disk.sameFiles_makeDirectories d place.dir
  rw [hmade] at hsame
  have hopen : ∃ cause, d₁.openExisting place.path true true = .error cause := by
    cases hopen : d₁.openExisting place.path true true with
    | ok file =>
      obtain ⟨id, -, -, hlookup⟩ := Disk.openExisting_write_eq_ok hopen
      exact absurd ((hsame.file_iff _ id).mp hlookup) (hnone id)
    | error cause => exact ⟨cause, rfl⟩
  obtain ⟨cause, hopen⟩ := hopen
  refine Yields.prepare (Sees disk told d₁ t) ?_ (fun _ _ => nofun) fun s h _ => ?_
  · refine hworks.asks (r := .makeDirectory _) trivial h hmade fun s h => ?_
    cases answer with
    | ok _ => exact hworks.notes _ h
    | error cause => exact (hworks.notes _ h).mono fun _ _ _ => trivial
  · refine hworks.asks (r := .openExisting _) trivial h (congrArg (·, d₁) hopen) fun s h => ?_
    exact (hworks.notes _ h).mono fun _ _ _ =>
      ((steady_of fun _ _ _ _ => trivial).createSized trivial).mono fun _ _ h => h.1

end Works

end ProofOfWork
