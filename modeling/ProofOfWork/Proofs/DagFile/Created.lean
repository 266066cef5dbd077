import ProofOfWork.Proofs.Client.Recreate

/-! The size of a DAG file that is made anew, on a file system where any call may fail. The position of
the last byte is a sum of 64 bits, and it is only the position of the last byte for a dataset of at most
`2 ^ 64 - 8` bytes. -/

namespace ProofOfWork

open Program Files

namespace Disk

/-- A file system like those of `Serves`, but a call that is carried out does just what a disk does. -/
def MayFail : Serving Files Disk
  | .caller _, d, _, d' => d' = d
  | r, d, a, d' => (a, d') = serve r d ∨ Refuses r a ∧ Cut r d d'

theorem MayFail.of_onFiles {r : Request} (hr : r.OnFiles) {d d' : Disk} {a : Answer r}
    (h : MayFail r d a d') : (a, d') = serve r d ∨ Refuses r a ∧ Cut r d d' := by
  cases r with
  | caller r => exact hr.elim
  | _ => exact h

end Disk

theorem Works.mayFail {σ τ : Type} {disk : σ → Disk} {told : σ → τ}
    {serve : (r : Request) → StateM σ (Answer r)} (hworks : Works disk told serve) (r : Request)
    (s : σ) : Disk.MayFail r (disk s) (serve r s).1 (disk (serve r s).2) := by
  cases r with
  | caller r => exact hworks.disk_caller r s
  | _ => exact .inl (hworks.disk_files _ s trivial)

namespace DagFile

/-! ### The bytes of a new file -/

/-- Zeros and a line feed at the end. -/
def createdBytes (size : UInt64) : ByteArray :=
  zeroBytes ((size.toNat + 7) % 2 ^ 64) ++ ⟨#[0x0a]⟩

variable {size : UInt64}

theorem toNat_lastPosition (size : UInt64) :
    (size + Params.magicBytes.toUInt64 - 1).toNat = (size.toNat + 7) % 2 ^ 64 := by
  have height : Params.magicBytes.toUInt64.toNat = 8 := rfl
  have hone : (1 : UInt64).toNat = 1 := rfl
  rw [UInt64.toNat_sub, UInt64.toNat_add, height, hone]
  omega

theorem size_createdBytes (size : UInt64) :
    (createdBytes size).size = (size.toNat + 7) % 2 ^ 64 + 1 := by
  rw [createdBytes, ByteArray.size_append, size_zeroBytes]
  rfl

theorem size_createdBytes_of_le (h : size.toNat + 8 ≤ 2 ^ 64) :
    (createdBytes size).size = size.toNat + 8 := by
  rw [size_createdBytes]
  omega

theorem size_createdBytes_of_lt (h : 2 ^ 64 < size.toNat + 8) : (createdBytes size).size < 8 := by
  have hlt := size.toNat_lt
  rw [size_createdBytes]
  omega

theorem bytes_write_last (size : UInt64) :
    (Contents.empty.write (size + Params.magicBytes.toUInt64 - 1).toNat ⟨#[0x0a]⟩).bytes =
      createdBytes size := by
  have hone : (ByteArray.mk #[0x0a]).size = 1 := rfl
  have hsize : (Contents.empty.write (size + Params.magicBytes.toUInt64 - 1).toNat ⟨#[0x0a]⟩).size =
      (createdBytes size).size := by
    rw [Contents.size_write, if_neg (by decide), Contents.size_empty, hone, size_createdBytes,
      toNat_lastPosition, Nat.max_eq_right (Nat.zero_le _)]
  refine Bytes.ext (by rw [Contents.size_bytes, hsize]) fun i hi => ?_
  rw [Contents.size_bytes] at hi
  rw [Contents.getElem!_bytes _ hi, Contents.byte_write, Contents.byte_empty, createdBytes,
    Bytes.getElem!_append, size_zeroBytes, getElem!_zeroBytes, toNat_lastPosition, hone]
  rw [hsize, size_createdBytes] at hi
  by_cases hlast : i < (size.toNat + 7) % 2 ^ 64
  · rw [if_neg (by omega), if_pos hlast]
  · rw [if_pos (by omega), if_neg hlast]

/-- A new file of at least eight bytes does not start with the magic number. -/
theorem startNumber_createdBytes (h : size.toNat + 8 ≤ 2 ^ 64) :
    startNumber (createdBytes size) ≠ Params.magic.toNat := by
  have hunmarked : Unmarked
      (Contents.empty.write (size + Params.magicBytes.toUInt64 - 1).toNat ⟨#[0x0a]⟩) :=
    unmarked_write_last _ 1
  have hsize := size_createdBytes_of_le h
  rw [← bytes_write_last, Contents.size_bytes] at hsize
  rw [← bytes_write_last, ne_eq, startNumber_eq_magic_iff (by omega)]
  exact fun hread => hunmarked.not_marked ⟨by omega, hread⟩

/-- What is wrong with a new file: it has no magic number, or not even room for one. -/
def flaw (size : UInt64) : Stale :=
  if size.toNat + 8 ≤ 2 ^ 64 then .magic (some (startNumber (createdBytes size)).toUInt64)
  else .size size 0

theorem judged_createdBytes (size : UInt64) (file : Handle) :
    judged size file (createdBytes size) = .stale (flaw size) := by
  by_cases hle : size.toNat + 8 ≤ 2 ^ 64
  · rw [judged, flaw, if_pos hle, if_neg (fun hne => hne (size_createdBytes_of_le hle)),
      if_pos (startNumber_createdBytes hle)]
  · have hlt := size_createdBytes_of_lt (Nat.lt_of_not_le hle)
    rw [judged, flaw, if_neg hle, if_pos (by omega), show (createdBytes size).size - 8 = 0 by omega]
    rfl

/-! ### Actions on a file system that may fail -/

/-- A file system that may fail. Only the failure of a call is the end of an action. -/
abbrev mayFail : Terms Disk :=
  .of Disk.MayFail fun e _ => ∃ activity path cause, e = .io activity path cause

section

variable {β : Type} {Q : β → Disk → Prop} {d : Disk} {activity : Activity} {path : Path}

theorem comes_mayFail {answer : Except IoError β} (hQ : ∀ b, answer = .ok b → Q b d) :
    Comes mayFail activity path Q answer d :=
  meets_of (fun _ _ => ⟨trivial, fun _ _ _ => ⟨_, _, _, rfl⟩⟩) hQ

theorem notes_mayFail {event : Event} {P : Disk → Prop} (h : P d) : Notes mayFail event P d := by
  refine ⟨trivial, fun _ d' hd => ?_⟩
  obtain rfl : d' = d := hd
  exact h

theorem comes_served {r : Request} {g : Answer r → Except IoError β} (hr : r.OnFiles)
    (hg : ∀ a, Disk.Refuses r a → ∃ e, g a = .error e)
    (hQ : ∀ a b d', Disk.serve r d = (a, d') → g a = .ok b → Q b d') :
    Asks mayFail r (fun a => Comes mayFail activity path Q (g a)) d := by
  refine ⟨trivial, fun a d' h => comes_mayFail fun b hb => ?_⟩
  rcases Disk.MayFail.of_onFiles hr h with hd | ⟨ha, -⟩
  · exact hQ a b d' hd.symm hb
  · obtain ⟨e, he⟩ := hg a ha
    rw [hb] at he
    contradiction

end

/-! ### Making a file -/

variable {place : Place} {path : Path} {d d₁ d' : Disk} {id : Nat}

/-- File `id` was made for a dataset of `size` bytes, and can be opened again. -/
structure Made (path : Path) (size : UInt64) (id : Nat) (d d' : Disk) : Prop where
  opens : d'.openExisting path true true = .ok ⟨.file id, true, true⟩
  bytes_eq : (d'.file id).bytes = createdBytes size
  room : (createdBytes size).size ≤ d.maxFileSize
  size_le : (createdBytes size).size ≤ 2 ^ 63

/-- File `id` was created at a path, and is empty. -/
structure New (path : Path) (id : Nat) (d d' : Disk) : Prop where
  created : Disk.Created d path.location id d'
  resolve : d.resolve path = .ok path.location
  entry_ne : d.lookup path.location ≠ some .directory
  max_eq : d'.maxFileSize = d.maxFileSize

theorem new_of_create {file : Handle} (hcreate : d.create path true true = (.ok file, d'))
    (hrange : ∀ id, d.lookup path.location = some (.file id) → id < d.contents.size) :
    ∃ id, file = ⟨.file id, true, true⟩ ∧ New path id d d' := by
  obtain ⟨hresolve, hentry⟩ := Disk.create_eq_ok hcreate
  have hmax := d.maxFileSize_create path true true
  rw [hcreate] at hmax
  rcases Disk.create_cases hrange true true with ⟨e, he⟩ | ⟨id, d₂, hid, hcreated⟩
  · rw [hcreate] at he
    cases he
  · rw [hcreate] at hid
    cases hid
    exact ⟨id, rfl, hcreated, hresolve, hentry, hmax⟩

/-- What is at hand when the last byte of a new file is written. -/
theorem New.made (h : New path id d d₁)
    (hwrite : d₁.write ⟨.file id, true, true⟩ (size + Params.magicBytes.toUInt64 - 1) ⟨#[0x0a]⟩ =
      (.ok (), d'))
    (hlimit : (size + Params.magicBytes.toUInt64 - 1).toNat < 2 ^ 63) :
    Made path size id d d' ∧ ∀ names, d.isDirectory names = true → d'.isDirectory names = true := by
  obtain ⟨hroom, rfl⟩ := Disk.write_eq_ok hwrite
  have hstays (f : Contents → Contents) (other : Location)
      (hother : d.lookup other = some .directory) :
      (d₁.modify id f).lookup other = some .directory := h.created.directory h.entry_ne hother
  refine ⟨⟨?_, ?_, ?_, ?_⟩, fun names => Disk.isDirectory_mono (hstays _)⟩
  · exact Disk.openExisting_of_file (Disk.resolve_mono (hstays _) h.resolve) h.created.lookup_eq _ _
  · rw [Disk.file_modify h.created.lt_size, if_pos rfl, h.created.empty]
    exact bytes_write_last size
  · rw [size_createdBytes, ← toNat_lastPosition, ← h.max_eq]
    exact hroom
  · rw [size_createdBytes, ← toNat_lastPosition]
    exact hlimit

theorem tried_createSized
    (hrange : ∀ id, d.lookup path.location = some (.file id) → id < d.contents.size) :
    Yields mayFail
      (fun memo d' => ∃ id, memo = .created ⟨.file id, true, true⟩ ∧ Made path size id d d' ∧
        ∀ names, d.isDirectory names = true → d'.isDirectory names = true)
      (createSized path size) d := by
  refine Yields.createSized
    (fun file d₁ => ∃ id, file = ⟨.file id, true, true⟩ ∧ New path id d d₁)
    (fun file d₁ => ∃ id, file = ⟨.file id, true, true⟩ ∧ New path id d d₁ ∧
      (size + Params.magicBytes.toUInt64 - 1).toNat < 2 ^ 63)
    (fun file d' => ∃ id, file = ⟨.file id, true, true⟩ ∧ Made path size id d d' ∧
      ∀ names, d.isDirectory names = true → d'.isDirectory names = true) ?_ ?_ ?_ ?_
  · refine comes_served trivial (fun _ h => h) fun a file d₁ hserve ha => ?_
    obtain rfl : a = .ok file := ha
    exact new_of_create hserve hrange
  · rintro _ d₁ ⟨id, rfl, hnew⟩
    refine comes_served trivial (fun _ h => h) fun a _ d₂ hserve ha => ?_
    obtain rfl : a = .ok () := ha
    obtain ⟨hseek, rfl⟩ := Prod.mk.inj hserve
    have hseek : d₁.seek ⟨.file id, true, true⟩ (size + Params.magicBytes.toUInt64 - 1) = .ok () :=
      hseek
    exact ⟨id, rfl, hnew, Disk.seek_eq_ok rfl hseek⟩
  · rintro _ d₁ ⟨id, rfl, hnew, hlimit⟩
    refine comes_served trivial (fun _ h => h) fun a _ d₂ hserve ha => ?_
    obtain rfl : a = .ok () := ha
    exact ⟨id, rfl, hnew.made hserve hlimit⟩
  · rintro _ d₁ ⟨id, rfl, hmade⟩
    refine comes_served trivial (fun _ h => h) fun a _ d₂ hserve _ => ?_
    obtain ⟨-, rfl⟩ := Prod.mk.inj hserve
    exact ⟨id, rfl, hmade⟩

/-- A file is made where there is none and in any case if that is asked for. -/
def Prepared (place : Place) (size : UInt64) (force : Bool) (d : Disk) (memo : Memo) (d' : Disk) :
    Prop :=
  (∃ id, memo = .created ⟨.file id, true, true⟩ ∧ Made place.path size id d d' ∧
    d'.makeDirectories place.dir = (.ok (), d')) ∨
  (∀ file, memo ≠ .created file) ∧ force = false ∧
    ∃ id, d.lookup place.path.location = some (.file id)

theorem tried_create {force : Bool} {d₁ : Disk}
    (hrange : ∀ id, d.lookup place.path.location = some (.file id) → id < d.contents.size)
    (hmade : d.makeDirectories place.dir = (.ok (), d₁)) :
    Yields mayFail (Prepared place size force d) (createSized place.path size) d₁ := by
  have hsame := Disk.sameFiles_makeDirectories d place.dir
  have hmax := d.maxFileSize_makeDirectories place.dir
  obtain ⟨hthere, hdir⟩ := Disk.isDirectory_makeDirectories (congrArg Prod.fst hmade)
  rw [hmade] at hsame hmax hthere
  refine (tried_createSized fun id hid => ?_).mono ?_
  · rw [hsame.contents]
    exact hrange id ((hsame.file_iff _ id).mp hid)
  · rintro _ d' ⟨id, rfl, hfile, hstays⟩
    refine .inl ⟨id, rfl, ⟨hfile.opens, hfile.bytes_eq, ?_, hfile.size_le⟩, ?_⟩
    · rw [← hmax]
      exact hfile.room
    · exact Disk.makeDirectories_of_isDirectory (hstays _ hthere) hdir

theorem tried_prepare {force : Bool}
    (hrange : ∀ id, d.lookup place.path.location = some (.file id) → id < d.contents.size) :
    Yields mayFail (Prepared place size force d) (prepare place size force) d := by
  refine Yields.prepare (fun d₁ => d.makeDirectories place.dir = (.ok (), d₁)) ?_
    (fun d₁ hmade _ => tried_create hrange hmade) ?_
  · refine comes_served trivial (fun _ h => h) fun a _ d₁ hmade ha => notes_mayFail ?_
    obtain rfl : a = .ok () := ha
    exact hmade
  · rintro d₁ hmade rfl
    refine ⟨trivial, fun answer d₂ h => ?_⟩
    have hserved := Disk.MayFail.of_onFiles (r := .openExisting place.path) trivial h
    obtain rfl : d₂ = d₁ := hserved.elim (fun h => (Prod.mk.inj h).2) fun h => h.2
    cases answer with
    | error cause => exact notes_mayFail (tried_create hrange hmade)
    | ok file =>
      have hopen := (Prod.mk.inj (hserved.resolve_right fun h => nomatch h.1)).1
      obtain ⟨id, -, -, hlookup⟩ := Disk.openExisting_write_eq_ok hopen.symm
      have hsame := Disk.sameFiles_makeDirectories d place.dir
      rw [hmade] at hsame
      refine ((steady_of fun _ _ _ _ => ⟨_, _, _, rfl⟩).probe trivial file).mono fun memo d' h => ?_
      exact .inr ⟨not_exists.mp h.1, rfl, id, (hsame.file_iff _ id).mp hlookup⟩

theorem Made.size_eq (h : Made place.path size id d d') :
    (d'.file id).size = (createdBytes size).size := by
  rw [← Contents.size_bytes, h.bytes_eq]

theorem Made.prepare_again (h : Made place.path size id d d')
    (hdir : d'.makeDirectories place.dir = (.ok (), d')) {σ τ : Type} {disk : σ → Disk} {told : σ → τ}
    {serve : (r : Request) → StateM σ (Answer r)} (hworks : Works disk told serve) {s : σ}
    (hs : disk s = d') :
    let again := (prepare place size false).run.run serve s
    disk again.2 = d' ∧ again.1 = .ok (.stale (flaw size)) := by
  have hlt : (d'.file id).size < 2 ^ 64 := by
    have hle := h.size_le
    rw [h.size_eq]
    omega
  have hyields : Yields (.of (.of serve) fun _ _ => False)
      (fun memo s' => Sees disk told d' (told s) s' ∧
        memo = judged size ⟨.file id, true, true⟩ (d'.file id).bytes)
      (prepare place size false) s := hworks.prepare_opened ⟨hs, rfl⟩ hdir h.opens hlt
  obtain ⟨memo, hmemo, hsees, rfl⟩ := hyields.exists_run_eq_ok
  refine ⟨hsees.1, hmemo.trans ?_⟩
  rw [h.bytes_eq, judged_createdBytes]

/-- Whatever calls fail, a file that is made has the bytes of the dataset and eight more, if this sum
fits 64 bits: zeros and a line feed, so that the next call finds it without the magic number. If the sum
does not fit, the file is shorter than the magic number. A length that the file system does not have
ends in the failure of a call, and so does every other failure. -/
theorem created_file_exact {force : Bool} {answer : Except Error Memo}
    (hrange : ∀ id, d.lookup place.path.location = some (.file id) → id < d.contents.size)
    (h : Ends Disk.MayFail (prepare place size force).run d answer d') :
    (∀ file, answer = .ok (.created file) →
      (∃ id, file = ⟨.file id, true, true⟩ ∧ d'.openExisting place.path true true = .ok file ∧
        (d'.file id).bytes = zeroBytes ((size.toNat + 7) % 2 ^ 64) ++ ⟨#[0x0a]⟩ ∧
        (size.toNat + 8 ≤ 2 ^ 64 → (d'.file id).size = size.toNat + 8 ∧
          startNumber (d'.file id).bytes ≠ Params.magic.toNat)) ∧
      ∀ (σ τ : Type) (disk : σ → Disk) (told : σ → τ)
        (serve : (r : Request) → StateM σ (Answer r)), Works disk told serve → ∀ s, disk s = d' →
        let again := (prepare place size false).run.run serve s
        disk again.2 = d' ∧ again.1 = .ok (.stale (
          if size.toNat + 8 ≤ 2 ^ 64 then .magic (some (startNumber (createdBytes size)).toUInt64)
          else .size size 0))) ∧
    (∀ e, answer = .error e → ∃ activity path cause, e = .io activity path cause) ∧
    (force = true ∨ (∀ id, d.lookup place.path.location ≠ some (.file id)) →
      size.toNat + 8 ≤ 2 ^ 64 → min d.maxFileSize (2 ^ 63) < size.toNat + 8 →
      ∃ activity path cause, answer = .error (.io activity path cause)) := by
  have hanswer := Keeps.ends (tried_prepare hrange) h
  refine ⟨?_, fun e he => hanswer.error he, ?_⟩
  · rintro file rfl
    obtain ⟨id, hfile, hmade, hdir⟩ := (hanswer.ok rfl).resolve_right fun h => h.1 file rfl
    obtain rfl := Memo.created.inj hfile
    refine ⟨⟨id, rfl, hmade.opens, hmade.bytes_eq, fun hle => ⟨?_, ?_⟩⟩, ?_⟩
    · rw [hmade.size_eq, size_createdBytes_of_le hle]
    · rw [hmade.bytes_eq]
      exact startNumber_createdBytes hle
    · intro σ τ disk told serve hworks s hs
      exact hmade.prepare_again hdir hworks hs
  · intro hforce hle hlimit
    cases answer with
    | error e =>
      obtain ⟨activity, path, cause, rfl⟩ := hanswer.error rfl
      exact ⟨activity, path, cause, rfl⟩
    | ok memo =>
      rcases hanswer.ok rfl with ⟨id, -, hmade, -⟩ | ⟨-, hfalse, id, hid⟩
      · have hroom := hmade.room
        have hsize := hmade.size_le
        rw [size_createdBytes_of_le hle] at hroom hsize
        omega
      · rcases hforce with hforce | hnone
        · rw [hfalse] at hforce
          contradiction
        · exact absurd hid (hnone id)

theorem inRange_pageDisk (id : Nat)
    (h : pageDisk.lookup pagePlace.path.location = some (.file id)) : id < pageDisk.contents.size := by
  rw [lookup_pageDisk] at h
  cases h
  decide

theorem ends_pagePrepare (size : UInt64) (force : Bool) :
    Ends Disk.MayFail (prepare pagePlace size force).run pageDisk
      (FullClient.pagePrepare size force).1 (FullClient.pagePrepare size force).2.disk :=
  ends_view Surroundings.disk (works_serveFiles fun _ => .goOn).mayFail _ ⟨pageDisk, #[], #[]⟩

theorem pagePrepare_forced :
    (FullClient.pagePrepare 128 true).1 = .ok (.created ⟨.file 0, true, true⟩) := by
  decide +kernel

/-- A file for one page has 136 bytes and no magic number, and the next call says so. -/
theorem created_file_exact_page :
    let made := (FullClient.pagePrepare 128 true).2
    Ends Disk.MayFail (prepare pagePlace 128 true).run pageDisk
      (.ok (.created ⟨.file 0, true, true⟩)) made.disk ∧
    (made.disk.file 0).size = 136 ∧
    ((prepare pagePlace 128 false).run.run (Surroundings.serveFiles fun _ => .goOn) made).1 =
      .ok (.stale (.magic (some 0))) := by
  intro made
  have hends := ends_pagePrepare 128 true
  rw [pagePrepare_forced] at hends
  obtain ⟨⟨id, hid, -, -, hsize⟩, hagain⟩ :=
    (created_file_exact inRange_pageDisk hends).1 _ rfl
  cases hid
  refine ⟨hends, (hsize (by decide)).1, ?_⟩
  rw [(hagain _ _ _ _ _ (works_serveFiles fun _ => .goOn) made rfl).2]
  decide +kernel

/-- The sum does not fit 64 bits for a dataset of `2 ^ 64 - 1` bytes, and its file has seven bytes. -/
theorem created_file_not_exact :
    ¬∀ (place : Place) (size : UInt64) (force : Bool) (d d' : Disk) (id : Nat),
      (∀ id, d.lookup place.path.location = some (.file id) → id < d.contents.size) →
      Ends Disk.MayFail (prepare place size force).run d (.ok (.created ⟨.file id, true, true⟩)) d' →
      (d'.file id).size = size.toNat + 8 := by
  intro h
  have hends := ends_pagePrepare (2 ^ 64 - 1) true
  have hcreated : (FullClient.pagePrepare (2 ^ 64 - 1) true).1 =
      .ok (.created ⟨.file 0, true, true⟩) := by decide +kernel
  rw [hcreated] at hends
  have hsize := h _ _ _ _ _ _ inRange_pageDisk hends
  have hseven : ((FullClient.pagePrepare (2 ^ 64 - 1) true).2.disk.file 0).size = 7 := by
    decide +kernel
  rw [hseven] at hsize
  omega

end DagFile

end ProofOfWork
