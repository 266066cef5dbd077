import ProofOfWork.DagFile.Name
import ProofOfWork.Proofs.Disk.Directories
import ProofOfWork.Proofs.Text.Hex

/-! Names of DAG files tell their seeds apart, and a path that is made of one leads straight into the
directory. -/

namespace ProofOfWork

namespace DagFile

theorem toList_name (revision : UInt32) (seed : Hash256) :
    (name revision seed).toList =
      "full-R".toList ++ Nat.toDigits 10 revision.toNat ++ ['-'] ++ Hex.digits seed.toList := by
  have hrevision : (toString revision.toNat).toList = Nat.toDigits 10 revision.toNat :=
    Nat.toList_repr
  rw [name, String.toList_append, String.toList_append, String.toList_append,
    ByteVector.toList_toHex, hrevision]
  rfl

/-- The digits of a seed are the last 64 characters of its names. -/
theorem seed_eq_of_name_eq {revision revision' : UInt32} {seed seed' : Hash256}
    (h : name revision seed = name revision' seed') : seed = seed' := by
  have hlist := congrArg String.toList h
  rw [toList_name, toList_name] at hlist
  have hlength : (Hex.digits seed.toList).length = (Hex.digits seed'.toList).length := by
    rw [Hex.length_digits, Hex.length_digits, ByteVector.length_toList, ByteVector.length_toList]
  have hdigits := (List.append_inj' hlist hlength).2
  exact ByteVector.toList_injective (Hex.digits_injective hdigits)

/-- The digits of a revision are all that stands between the start of its names and the dash before
the seed, however many they are. -/
theorem revision_eq_of_name_eq {revision revision' : UInt32} {seed seed' : Hash256}
    (h : name revision seed = name revision' seed') : revision = revision' := by
  have hlist := congrArg String.toList h
  rw [toList_name, toList_name, seed_eq_of_name_eq h] at hlist
  have hdash := List.append_cancel_right hlist
  have hstart := List.append_cancel_right hdash
  have hdigits := List.append_cancel_left hstart
  have hnat : revision.toNat = revision'.toNat := by
    rw [← Nat.ofDigitChars_ten_toDigits (n := revision.toNat), hdigits,
      Nat.ofDigitChars_ten_toDigits]
  exact UInt32.toNat_inj.mp hnat

theorem isAlphanum_or_of_mem_name {revision : UInt32} {seed : Hash256} {c : Char}
    (h : c ∈ (name revision seed).toList) : c.isAlphanum = true ∨ c = '-' := by
  rw [toList_name] at h
  rcases List.mem_append.mp h with h | h
  · rcases List.mem_append.mp h with h | h
    · rcases List.mem_append.mp h with h | h
      · have hstart : "full-R".toList.all (fun c => c.isAlphanum || c == '-') = true := by decide
        simpa using List.all_eq_true.mp hstart c h
      · left
        rw [Char.isAlphanum, Nat.isDigit_of_mem_toDigits (by decide) (by decide) h, Bool.or_true]
    · exact .inr (List.mem_singleton.mp h)
  · exact .inl (Hex.isAlphanum_of_mem_digits h)

theorem slash_not_mem_name (revision : UInt32) (seed : Hash256) :
    '/' ∉ (name revision seed).toList := by
  intro h
  exact absurd (isAlphanum_or_of_mem_name h) (by decide)

theorem zero_not_mem_name (revision : UInt32) (seed : Hash256) :
    '\x00' ∉ (name revision seed).toList := by
  intro h
  exact absurd (isAlphanum_or_of_mem_name h) (by decide)

/-- A name has no more than 81 characters, of one byte each. -/
theorem utf8ByteSize_name_le (revision : UInt32) (seed : Hash256) :
    (name revision seed).utf8ByteSize ≤ 81 := by
  have hone : ∀ c ∈ (name revision seed).toList, c.utf8Size = 1 := by
    intro c hc
    rcases isAlphanum_or_of_mem_name hc with h | rfl
    · exact Text.utf8Size_of_isAlphanum h
    · rfl
  have hrevision : (Nat.toDigits 10 revision.toNat).length ≤ 10 := by
    rw [Nat.length_toDigits_le_iff (by decide) (by decide)]
    exact Nat.lt_trans revision.toNat_lt (by decide)
  rw [← String.ofList_toList (s := name revision seed), Text.utf8ByteSize_ofList hone, toList_name]
  simp only [List.length_append, Hex.length_digits, ByteVector.length_toList]
  have hstart : "full-R".toList.length = 6 := by decide
  rw [hstart, List.length_singleton]
  omega

theorem isName_name (revision : UInt32) (seed : Hash256) : IsName (name revision seed) := by
  have hhead : (name revision seed).toList.head? = some 'f' := by
    rw [toList_name]
    rfl
  refine ⟨slash_not_mem_name revision seed, zero_not_mem_name revision seed, ?_, ?_, ?_, ?_⟩
  case refine_4 => exact Nat.le_trans (utf8ByteSize_name_le revision seed) (by decide)
  all_goals
    intro h
    rw [h] at hhead
    revert hhead
    decide

theorem location_path (dir : Path) (revision : UInt32) (seed : Hash256) :
    (path Path.join dir revision seed).location = dir.location ++ [name revision seed] :=
  have h := isName_name revision seed
  Path.location_join dir h.slash_not_mem h.ne_empty h.ne_dot h.ne_dots

/-- No two revisions and seeds have one name. A name has no slash, so that its path in a directory is
the path of the directory with that one name after it, and leads to a place right in the place of the
directory, which no other revision or seed leads to. -/
theorem paths_never_shared :
    (∀ revision revision' seed seed', name revision seed = name revision' seed' →
      revision = revision' ∧ seed = seed') ∧
    (∀ revision seed, '/' ∉ (name revision seed).toList) ∧
    ∀ dir : Path,
      (∀ revision seed,
        (∃ rest, (path Path.join dir revision seed).text = dir.text ++ rest) ∧
        (path Path.join dir revision seed).names = dir.names ++ [name revision seed] ∧
        (path Path.join dir revision seed).location = dir.location ++ [name revision seed]) ∧
      ∀ revision revision' seed seed',
        (path Path.join dir revision seed).location = (path Path.join dir revision' seed').location →
          revision = revision' ∧ seed = seed' := by
  have hname : ∀ revision revision' seed seed', name revision seed = name revision' seed' →
      revision = revision' ∧ seed = seed' :=
    fun _ _ _ _ h => ⟨revision_eq_of_name_eq h, seed_eq_of_name_eq h⟩
  refine ⟨hname, slash_not_mem_name, fun dir => ⟨fun revision seed => ?_, ?_⟩⟩
  · have h := isName_name revision seed
    exact ⟨Path.exists_text_join dir h.slash_not_mem,
      Path.names_join dir h.slash_not_mem h.ne_empty, location_path dir revision seed⟩
  · intro revision revision' seed seed' h
    rw [location_path, location_path] at h
    exact hname _ _ _ _ (List.singleton_inj.mp (List.append_cancel_left h))

end DagFile

end ProofOfWork
