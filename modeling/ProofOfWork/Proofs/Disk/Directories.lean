import ProofOfWork.Proofs.Disk.Files

/-! Directories that were made are there: paths into them lead on. -/

namespace ProofOfWork

namespace Disk

variable {d d' : Disk} {p : Path} {names : List String} {place : Location}

theorem isDirectory_iff :
    d.isDirectory names = true ↔ ∃ place, d.walk [] names = .ok place ∧
      d.lookup place = some .directory := by
  unfold isDirectory
  split
  · rename_i place hwalk
    rw [decide_eq_true_iff]
    constructor
    · intro h
      exact ⟨place, hwalk, h⟩
    · rintro ⟨found, hfound, h⟩
      rw [hwalk] at hfound
      cases hfound
      exact h
  · rename_i e hwalk
    constructor
    · intro h
      contradiction
    · rintro ⟨found, hfound, -⟩
      rw [hwalk] at hfound
      contradiction

theorem walk_append (d : Disk) (start : Location) (names rest : List String) :
    d.walk start (names ++ rest) = d.walk start names >>= fun place => d.walk place rest := by
  induction names generalizing start with
  | nil => rfl
  | cons name names ih =>
    rw [List.cons_append, walk, walk]
    split
    · rfl
    · rfl
    · split
      · exact ih _
      · split
        · exact ih _
        · split
          · rfl
          · exact ih _

/-- A path leads where it led while the directories on it are there. -/
theorem walk_mono (hstays : ∀ place, d.lookup place = some .directory →
    d'.lookup place = some .directory) {start found : Location} (h : d.walk start names = .ok found) :
    d'.walk start names = .ok found := by
  induction names generalizing start with
  | nil => exact h
  | cons name names ih =>
    rw [walk] at h ⊢
    split at h
    · contradiction
    · contradiction
    · rename_i hstart
      rw [hstays start hstart]
      dsimp only
      split at h
      · rw [if_pos ‹_›]
        exact ih h
      · rw [if_neg ‹_›]
        split at h
        · rw [if_pos ‹_›]
          exact ih h
        · rw [if_neg ‹_›]
          split at h
          · contradiction
          · rw [if_neg ‹_›]
            exact ih h

theorem isDirectory_mono (hstays : ∀ place, d.lookup place = some .directory →
    d'.lookup place = some .directory) (h : d.isDirectory names = true) :
    d'.isDirectory names = true := by
  obtain ⟨place, hwalk, hlookup⟩ := isDirectory_iff.mp h
  exact isDirectory_iff.mpr ⟨place, walk_mono hstays hwalk, hstays place hlookup⟩

theorem resolve_mono (hstays : ∀ place, d.lookup place = some .directory →
    d'.lookup place = some .directory) (h : d.resolve p = .ok place) :
    d'.resolve p = .ok place := by
  unfold resolve follow at h ⊢
  split at h
  · contradiction
  · cases hwalk : d.walk [] (if p.endsWithSlash then p.names ++ ["."] else p.names) with
    | error e =>
      rw [hwalk] at h
      contradiction
    | ok found =>
      rw [hwalk] at h
      rw [walk_mono hstays hwalk]
      exact h

/-- A new entry is in the way of no path that leads somewhere. -/
theorem walk_insert {start : Location} (hfree : d.lookup place = none) (entry : Entry)
    {found : Location} (h : d.walk start names = .ok found) :
    (d.insert place entry).walk start names = .ok found := by
  refine walk_mono (fun other hother => ?_) h
  have hne : other ≠ place := by
    rintro rfl
    rw [hfree] at hother
    contradiction
  rw [lookup_insert (ne_root_of_free hfree), if_neg hne, hother]

/-- A file that is created is where its path leads, and no directory is in its place. -/
theorem create_eq_ok {canRead canWrite : Bool} {file : Handle}
    (h : d.create p canRead canWrite = (.ok file, d')) :
    d.resolve p = .ok p.location ∧ d.lookup p.location ≠ some .directory := by
  unfold create at h
  split at h
  · cases h
  cases hresolve : d.resolve p with
  | error e =>
    rw [hresolve] at h
    cases h
  | ok place =>
    rw [hresolve] at h
    refine ⟨by rw [resolve_eq_ok hresolve], fun hentry => ?_⟩
    rw [resolve_eq_ok hresolve] at hentry
    simp only [hentry] at h
    cases h

theorem Created.directory {id : Nat} (h : Created d place id d')
    (hentry : d.lookup place ≠ some .directory) {other : Location}
    (hother : d.lookup other = some .directory) : d'.lookup other = some .directory := by
  rw [h.lookup_ne other fun heq => hentry (heq ▸ hother), hother]

theorem isDirectory_makeDirectory (h : d.makeDirectory names = (.ok (), d')) :
    d'.isDirectory names = true := by
  rcases makeDirectory_cases d names with ⟨e, heq⟩ | ⟨place, hwalk, hfree, heq⟩
  · rw [heq] at h
    cases h
  · rw [heq] at h
    cases h
    rw [isDirectory_iff]
    refine ⟨place, walk_insert hfree .directory hwalk, ?_⟩
    rw [lookup_insert (ne_root_of_free hfree), if_pos rfl]

theorem isDirectory_of_forgive {e : OsError} (h : d.forgive names e = .ok ()) :
    d.isDirectory names = true := by
  unfold forgive at h
  split at h
  · assumption
  · contradiction

theorem isDirectory_makeDirectoriesUpTo {depth : Nat}
    (h : makeDirectoriesUpTo depth d names = (.ok (), d')) : d'.isDirectory names = true := by
  cases depth with
  | zero =>
    obtain ⟨hforgive, rfl⟩ := Prod.mk.inj h
    exact isDirectory_of_forgive hforgive
  | succ depth =>
    rw [makeDirectoriesUpTo] at h
    split at h
    · rename_i d₁ heq
      cases h
      exact isDirectory_makeDirectory heq
    · split at h
      · cases h
      · split at h
        · rename_i heq
          cases h
          exact isDirectory_makeDirectory heq
        · obtain ⟨hforgive, rfl⟩ := Prod.mk.inj h
          exact isDirectory_of_forgive hforgive
    · obtain ⟨hforgive, rfl⟩ := Prod.mk.inj h
      exact isDirectory_of_forgive hforgive

/-- A directory that was made without a failure is there, and its path is one that can be used. -/
theorem isDirectory_makeDirectories (h : (d.makeDirectories p).1 = .ok ()) :
    (d.makeDirectories p).2.isDirectory p.names = true ∧ (p.text = "" ∨ refusal p = none) := by
  unfold makeDirectories at h ⊢
  split
  · rename_i hempty
    have hnames : p.names = [] := by
      rw [Path.names, hempty]
      rfl
    rw [hnames]
    exact ⟨rfl, .inl hempty⟩
  · rename_i hne
    rw [if_neg hne] at h
    split
    · rename_i e hrefusal
      rw [hrefusal] at h
      contradiction
    · rename_i hrefusal
      rw [hrefusal] at h
      refine ⟨?_, .inr hrefusal⟩
      revert h
      cases hmade : makeDirectoriesUpTo (p.names.length + 1) d p.names with
      | mk answer d' =>
        intro h
        cases answer with
        | ok _ => exact isDirectory_makeDirectoriesUpTo hmade
        | error e => contradiction

/-- A directory that is there is not made again. -/
theorem makeDirectories_of_isDirectory (h : d.isDirectory p.names = true)
    (hpath : p.text = "" ∨ refusal p = none) : d.makeDirectories p = (.ok (), d) := by
  obtain ⟨place, hwalk, hlookup⟩ := isDirectory_iff.mp h
  have hmade : d.makeDirectory p.names = (.error .alreadyExists, d) := by
    rw [makeDirectory, hwalk]
    simp [hlookup]
  have hforgive : d.forgive p.names .alreadyExists = .ok () := if_pos h
  rw [makeDirectories]
  split
  · rfl
  · rename_i hne
    rw [hpath.resolve_left hne, makeDirectoriesUpTo, hmade]
    simp only [hforgive]
    rfl

end Disk

/-! ### Paths of files in a directory -/

/-- A name that a file can have. -/
structure IsName (name : String) : Prop where
  slash_not_mem : '/' ∉ name.toList
  zero_not_mem : '\x00' ∉ name.toList
  ne_empty : name ≠ ""
  ne_dot : name ≠ "."
  ne_dots : name ≠ ".."
  size_le : name.utf8ByteSize ≤ Disk.maxNameSize

namespace Path

variable {name : String}

theorem toList_join (dir : Path) (h : '/' ∉ name.toList) :
    (dir.join name).text.toList = dir.text.toList ++ name.toList ∨
      (dir.join name).text.toList = dir.text.toList ++ '/' :: name.toList := by
  have hhead : name.toList.head? ≠ some '/' := fun hsome => h (List.mem_of_head? hsome)
  rw [join, if_neg hhead]
  split
  · left
    rw [String.toList_append]
  · right
    rw [String.toList_append, String.toList_append, List.append_assoc]
    rfl

theorem exists_text_join (dir : Path) (h : '/' ∉ name.toList) :
    ∃ rest, (dir.join name).text = dir.text ++ rest := by
  have hhead : name.toList.head? ≠ some '/' := fun hsome => h (List.mem_of_head? hsome)
  rw [join, if_neg hhead]
  split
  · exact ⟨name, rfl⟩
  · exact ⟨"/" ++ name, String.append_assoc⟩

theorem endsWithSlash_join (dir : Path) (h : IsName name) : (dir.join name).endsWithSlash = false := by
  have hne : name.toList ≠ [] := fun hnil => h.ne_empty (String.toList_inj.mp hnil)
  have hname : name.toList.getLast? = some (name.toList.getLast hne) := List.getLast?_eq_some_getLast hne
  have hlast : (dir.join name).text.toList.getLast? = name.toList.getLast? := by
    rcases toList_join dir h.slash_not_mem with heq | heq
    · simp [heq, List.getLast?_append, hname]
    · simp [heq, List.getLast?_append, List.getLast?_cons, hname]
  rw [endsWithSlash, hlast, beq_eq_false_iff_ne]
  intro hsome
  exact h.slash_not_mem (List.mem_of_getLast? hsome)

end Path

namespace Disk

variable {d : Disk} {dir : Path} {name : String}

theorem zero_not_mem_of_refusal {p : Path} (h : refusal p = none) : '\x00' ∉ p.text.toList := by
  intro hmem
  rw [refusal, if_pos (List.contains_iff_mem.mpr hmem)] at h
  contradiction

theorem utf8ByteSize_le_of_refusal {p : Path} (h : refusal p = none) :
    p.text.utf8ByteSize ≤ maxPathSize := by
  unfold refusal at h
  split at h
  · contradiction
  split at h
  · contradiction
  split at h
  · contradiction
  · rename_i hle
    exact Nat.not_lt.mp hle

theorem refusal_join (hname : IsName name) (hdir : dir.text = "" ∨ refusal dir = none)
    (hsize : (dir.join name).text.utf8ByteSize ≤ maxPathSize) : refusal (dir.join name) = none := by
  have hzero : '\x00' ∉ dir.text.toList := by
    rcases hdir with hempty | hrefusal
    · rw [hempty]
      exact List.not_mem_nil
    · exact zero_not_mem_of_refusal hrefusal
  have hnot : '\x00' ∉ (dir.join name).text.toList := by
    rcases Path.toList_join dir hname.slash_not_mem with heq | heq
    · simp [heq, hzero, hname.zero_not_mem]
    · simp [heq, hzero, hname.zero_not_mem]
  have hne : (dir.join name).text ≠ "" := by
    intro hempty
    have hnil : name.toList = [] := by
      rcases Path.toList_join dir hname.slash_not_mem with heq | heq
      · rw [hempty] at heq
        exact (List.append_eq_nil_iff.mp heq.symm).2
      · rw [hempty] at heq
        exact absurd (List.append_eq_nil_iff.mp heq.symm).2 (List.cons_ne_nil _ _)
    exact hname.ne_empty (String.toList_inj.mp hnil)
  rw [refusal, if_neg (fun h => hnot (List.contains_iff_mem.mp h)), if_neg hne,
    if_neg (Nat.not_lt.mpr hsize)]

theorem refusal_of_join (hname : IsName name) (h : refusal (dir.join name) = none) :
    dir.text = "" ∨ refusal dir = none := by
  by_cases hempty : dir.text = ""
  · exact .inl hempty
  obtain ⟨rest, hrest⟩ := Path.exists_text_join dir hname.slash_not_mem
  have hzero : '\x00' ∉ dir.text.toList := by
    have hnot := zero_not_mem_of_refusal h
    rw [hrest, String.toList_append] at hnot
    exact fun hmem => hnot (List.mem_append_left _ hmem)
  have hsize : dir.text.utf8ByteSize ≤ maxPathSize := by
    have hle := utf8ByteSize_le_of_refusal h
    rw [hrest, String.utf8ByteSize_append] at hle
    omega
  right
  rw [refusal, if_neg (fun h => hzero (List.contains_iff_mem.mp h)), if_neg hempty,
    if_neg (Nat.not_lt.mpr hsize)]

/-- The path of a name in a directory that is there leads to the place of the name in it. -/
theorem resolve_join (hname : IsName name) (hthere : d.isDirectory dir.names = true)
    (hdir : dir.text = "" ∨ refusal dir = none)
    (hsize : (dir.join name).text.utf8ByteSize ≤ maxPathSize) :
    d.resolve (dir.join name) = .ok (dir.join name).location := by
  obtain ⟨place, hwalk, hlookup⟩ := isDirectory_iff.mp hthere
  have hlast : d.walk place [name] = .ok (place ++ [name]) := by
    rw [walk, hlookup]
    dsimp only
    rw [if_neg hname.ne_dot, if_neg hname.ne_dots, if_neg (Nat.not_lt.mpr hname.size_le), walk]
  have hnames : d.walk [] (dir.join name).names = .ok (place ++ [name]) := by
    rw [Path.names_join dir hname.slash_not_mem hname.ne_empty, walk_append, hwalk]
    exact hlast
  have hresolve : d.resolve (dir.join name) = .ok (place ++ [name]) := by
    rw [resolve, Path.endsWithSlash_join dir hname, follow, refusal_join hname hdir hsize]
    simp only [Bool.false_eq_true, if_false, hnames]
    rfl
  rw [hresolve, resolve_eq_ok hresolve]

/-- A path in a directory only leads anywhere if the directory is there. -/
theorem isDirectory_of_resolve_join (hname : IsName name) {place : Location}
    (h : d.resolve (dir.join name) = .ok place) :
    d.isDirectory dir.names = true ∧ (dir.text = "" ∨ refusal dir = none) := by
  rw [resolve, Path.endsWithSlash_join dir hname, follow] at h
  split at h
  · contradiction
  rename_i hrefusal
  refine ⟨?_, refusal_of_join hname hrefusal⟩
  simp only [Bool.false_eq_true, if_false, Path.names_join dir hname.slash_not_mem hname.ne_empty,
    walk_append] at h
  rw [isDirectory_iff]
  cases hwalk : d.walk [] dir.names with
  | error e =>
    rw [hwalk] at h
    contradiction
  | ok found =>
    refine ⟨found, rfl, ?_⟩
    rw [hwalk] at h
    -- the last step of the path is one from a directory
    simp only [bind, Except.bind, walk] at h
    split at h
    · contradiction
    · contradiction
    · assumption

end Disk

end ProofOfWork
