import ProofOfWork.Proofs.Client.Session

/-! What is left of a DAG file of use after a call for a client that may use it. Whatever fails, the
file is as it was, but for two cases: a file that cannot be opened is taken for none, and one whose
start cannot be read is taken for one without the magic number. In both a file is asked for anew at its
path, which empties the one that is there. -/

namespace ProofOfWork

open Program Files DagFile

structure Files.Exchange where
  request : Request
  answer : Answer request

def Files.Exchange.isCreate : Exchange → Bool
  | ⟨.create _, _⟩ => true
  | _ => false

def Files.Exchange.isOpenError : Exchange → Bool
  | ⟨.openExisting _, .error _⟩ => true
  | _ => false

def Files.Exchange.isReadError : Exchange → Bool
  | ⟨.readMagic _, .error _⟩ => true
  | _ => false

namespace Disk

/-- A file system with all that was asked of it, the latest first. -/
def Records : Serving Files (Disk × List Exchange) :=
  fun r s a s' => Serves r s.1 a s'.1 ∧ s'.2 = ⟨r, a⟩ :: s.2

theorem Records.look {r : Request} {a : Answer r} {s s' : Disk × List Exchange}
    (h : Records r s a s') (hr : Looks r) : s'.1 = s.1 ∧ (Does r s.1 a s.1 ∨ Refuses r a) := by
  rcases h.1 with hd | ⟨ha, hcut⟩
  · have heq := hr.does hd
    exact ⟨heq, .inl (heq ▸ hd)⟩
  · exact ⟨hr.cut hcut, .inr ha⟩

/-- The requests that `serve` answers, with a record of them. -/
def recording {σ : Type} (serve : (r : Request) → StateM σ (Answer r)) (r : Request) :
    StateM (σ × List Exchange) (Answer r) := fun s =>
  ((serve r s.1).1, (serve r s.1).2, ⟨r, (serve r s.1).1⟩ :: s.2)

theorem ends_recording {σ α : Type} {serve : (r : Request) → StateM σ (Answer r)} (disk : σ → Disk)
    (hserve : ∀ r s, Serves r (disk s) (serve r s).1 (disk (serve r s).2)) (p : Program Files α)
    (s : σ × List Exchange) :
    Ends Records p (disk s.1, s.2) (p.run (recording serve) s).1
      (disk (p.run (recording serve) s).2.1, (p.run (recording serve) s).2.2) :=
  ends_view (fun s => (disk s.1, s.2)) (fun r s => ⟨hserve r s.1, rfl⟩) p s

end Disk

namespace DagFile

/-- The file at a path could not be opened, or the start of a file could not be read. -/
def Failed (path : Path) (history : List Exchange) : Prop :=
  (∃ cause, ⟨.openExisting path, .error cause⟩ ∈ history) ∨
    ∃ file cause, ⟨.readMagic file, .error cause⟩ ∈ history

/-- After such a failure a file was asked for anew at the path. -/
def GivesUp (path : Path) (history : List Exchange) : Prop :=
  Failed path history ∧ ∃ answer, ⟨.create path, answer⟩ ∈ history

/-- The file at a path still has the bytes `b`, or was given up. -/
def Spared (path : Path) (b : ByteArray) (s : Disk × List Exchange) : Prop :=
  s.1.bytesAt path.location = some b ∨ GivesUp path s.2

/-- The file at a path is open and has the bytes `b`. -/
def Spare (path : Path) (b : ByteArray) (file : Handle) (s : Disk × List Exchange) : Prop :=
  ∃ id, file.referent = .file id ∧ s.1.lookup path.location = some (.file id) ∧
    (s.1.file id).bytes = b

variable {path : Path} {b : ByteArray} {s s' : Disk × List Exchange}

theorem Failed.cons {history : List Exchange} (h : Failed path history) (x : Exchange) :
    Failed path (x :: history) := by
  rcases h with ⟨cause, hmem⟩ | ⟨file, cause, hmem⟩
  · exact .inl ⟨cause, List.mem_cons_of_mem x hmem⟩
  · exact .inr ⟨file, cause, List.mem_cons_of_mem x hmem⟩

theorem GivesUp.cons {history : List Exchange} (h : GivesUp path history) (x : Exchange) :
    GivesUp path (x :: history) := by
  obtain ⟨hfailed, answer, hmem⟩ := h
  exact ⟨hfailed.cons x, answer, List.mem_cons_of_mem x hmem⟩

/-- However a call fails, the file is spared. -/
abbrev spares (path : Path) (b : ByteArray) : Terms (Disk × List Exchange) :=
  .of Disk.Records fun _ => Spared path b

section

variable {α β : Type} {Q : β → Disk × List Exchange → Prop} {activity : Activity} {of : Path}
  {answer : Except IoError β}

/-- What is given up stays so. -/
theorem GivesUp.records (h : GivesUp path s.2) {r : Request} {a : Answer r}
    (hs : Disk.Records r s a s') : GivesUp path s'.2 := by
  rw [hs.2]
  exact h.cons _

theorem GivesUp.asks (h : GivesUp path s.2) {r : Request}
    {P : Answer r → Disk × List Exchange → Prop} (hP : ∀ a s', GivesUp path s'.2 → P a s') :
    Asks (spares path b) r P s := ⟨trivial, fun a s' hs => hP a s' (h.records hs)⟩

theorem GivesUp.comes (h : GivesUp path s.2) (hQ : ∀ x s', GivesUp path s'.2 → Q x s') :
    Comes (spares path b) activity of Q answer s :=
  meets_of (fun _ _ => h.asks fun _ _ h => .inr h) fun x _ => hQ x s h

theorem GivesUp.yields {R : α → Disk × List Exchange → Prop} (h : GivesUp path s.2)
    (hR : ∀ a s', GivesUp path s'.2 → R a s') (x : Action α) : Yields (spares path b) R x s := by
  have hstep (r s a s') (_ : True) (hs : Disk.Records r s a s') (h : GivesUp path s.2) :
      GivesUp path s'.2 := h.records hs
  refine ((keeps_trivial x.run s).invariant hstep h).mono (fun _ _ h => h) ?_
  rintro answer s' ⟨-, h'⟩
  cases answer with
  | ok a => exact hR a s' h'
  | error e => exact .inr h'

theorem asks_look {r : Request} (hr : Looks r) {P : Answer r → Disk × List Exchange → Prop}
    (hP : ∀ a s', s'.1 = s.1 → s'.2 = ⟨r, a⟩ :: s.2 →
      Disk.Does r s.1 a s.1 ∨ Disk.Refuses r a → P a s') : Asks (spares path b) r P s := by
  refine ⟨trivial, fun a s' hs => ?_⟩
  obtain ⟨heq, ha⟩ := hs.look hr
  exact hP a s' heq hs.2 ha

theorem comes_of_bytesAt (h : s.1.bytesAt path.location = some b)
    (hQ : ∀ x, answer = .ok x → Q x s) : Comes (spares path b) activity of Q answer s := by
  refine meets_of (fun _ _ => ?_) hQ
  refine asks_look (r := .caller (.log _)) trivial fun _ s' heq _ _ => .inl ?_
  rw [heq]
  exact h

end

theorem Spare.look {file : Handle} (h : Spare path b file s) (heq : s'.1 = s.1) :
    Spare path b file s' := by
  unfold Spare
  rw [heq]
  exact h

theorem Spare.bytesAt {file : Handle} (h : Spare path b file s) :
    s.1.bytesAt path.location = some b := by
  obtain ⟨id, -, hlookup, hbytes⟩ := h
  rw [Disk.bytesAt_of_file hlookup, hbytes]

variable {size : UInt64}

/-- A file that is asked for after a failure is given up. -/
theorem spares_createSized (h : Failed path s.2) :
    Yields (spares path b) (fun _ s' => GivesUp path s'.2) (createSized path size) s := by
  refine Yields.createSized (fun _ s => GivesUp path s.2) (fun _ s => GivesUp path s.2)
    (fun _ s => GivesUp path s.2) ⟨trivial, fun a s' hs => GivesUp.comes ?_ fun _ _ h => h⟩ ?_ ?_ ?_
  · rw [hs.2]
    exact ⟨h.cons _, a, List.mem_cons_self⟩
  all_goals exact fun _ _ h => h.asks fun _ _ h => h.comes fun _ _ h => h

section

variable (hsize : b.size = size.toNat + 8) (hlimit : size.toNat + 8 < 2 ^ 64)
  (hmagic : b.extract 0 8 = magicBytes.bytes) {place : Place}

include hsize hlimit hmagic

theorem spares_probe {file : Handle} (h : Spare path b file s) :
    Yields (spares path b)
      (fun memo s' => Spare path b file s' ∧
        (memo = .found file ∨ (∃ reason, memo = .stale reason) ∧ Failed path s'.2))
      (probe file path size) s := by
  refine Yields.probe (fun found s => Spare path b file s ∧ storedSize found = some size)
    (fun bytes s => Spare path b file s ∧ bytes = magicBytes) ?_ ?_ ?_ ?_ ?_
  · refine asks_look (r := .size file) trivial fun answer s' heq _ ha => ?_
    refine comes_of_bytesAt (h.look heq).bytesAt fun found hfound => ⟨h.look heq, ?_⟩
    obtain rfl : answer = .ok found := hfound
    obtain ⟨-, hfound⟩ := ha.resolve_right nofun
    obtain ⟨id, hid, -, hbytes⟩ := h
    rw [Except.ok.inj hfound, Disk.size_eq hid, ← Contents.size_bytes, hbytes, hsize]
    refine storedSize_of_toNat_eq ?_
    rw [Nat.toUInt64_eq, UInt64.toNat_ofNat', Nat.mod_eq_of_lt hlimit]
  · exact fun found s h hne => absurd h.2 hne
  · rintro found s ⟨h, -⟩ -
    refine asks_look (r := .readMagic file) trivial fun answer s' heq hs ha => ?_
    have h' := h.look heq
    cases answer with
    | error cause =>
      refine asks_look (r := .caller (.log _)) trivial fun _ s'' heq' hs' _ => ?_
      refine ⟨h'.look heq', .inr ⟨⟨_, rfl⟩, .inr ⟨file, cause, ?_⟩⟩⟩
      simp [hs, hs']
    | ok bytes =>
      obtain ⟨-, hread⟩ := ha.resolve_right nofun
      obtain ⟨id, hid, -, hbytes⟩ := h
      refine ⟨h', Bytes.eq_of_bytes_eq ?_⟩
      rw [← (Disk.readStart_eq_ok hid hread.symm).2, ← hmagic, ← hbytes,
        Contents.extract_bytes _ (by rw [← Contents.size_bytes, hbytes]; omega)]
  · rintro bytes s ⟨-, rfl⟩ hne
    exact absurd magicOf_magicBytes hne
  · exact fun bytes s h _ => ⟨h.1, .inl rfl⟩

/-- What is known after the file was opened: it was given up, or it is open as it was, or its start
could not be read. -/
def Opens (path : Path) (b : ByteArray) (memo : Memo) (s : Disk × List Exchange) : Prop :=
  GivesUp path s.2 ∨ (∃ file, memo = .found file ∧ Spare path b file s) ∨
    (∃ reason, memo = .stale reason) ∧ s.1.bytesAt path.location = some b ∧ Failed path s.2

/-- A file is only made anew after a failure. -/
theorem spares_prepare {force : Bool} (h : s.1.bytesAt place.path.location = some b)
    (hforce : force = true → Failed place.path s.2) :
    Yields (spares place.path b) (Opens place.path b) (prepare place size force) s := by
  refine Yields.prepare (fun s => s.1.bytesAt place.path.location = some b ∧
    (force = true → Failed place.path s.2)) ?_ ?_ ?_
  · refine ⟨trivial, fun answer s' hs => ?_⟩
    have hsame : Disk.SameFiles s.1 s'.1 := by
      rcases hs.1 with hd | ⟨-, hcut⟩
      · exact hd
      · exact hcut
    have h' := (hsame.bytesAt_eq place.path.location).trans h
    refine comes_of_bytesAt h' fun _ _ => ?_
    refine asks_look (r := .caller (.log _)) trivial fun _ s'' heq hs' _ => ?_
    rw [heq, hs', hs.2]
    exact ⟨h', fun hf => ((hforce hf).cons _).cons _⟩
  · rintro s ⟨-, hforce⟩ hf
    exact (spares_createSized (hforce hf)).mono fun _ _ h => .inl h
  · rintro s ⟨h, -⟩ -
    refine asks_look (r := .openExisting _) trivial fun answer s' heq hs ha => ?_
    cases answer with
    | error cause =>
      -- a file that cannot be opened is taken for none, and anything may become of it
      refine asks_look (r := .caller (.log _)) trivial fun _ s'' _ hs' _ => ?_
      refine (spares_createSized (.inl ⟨cause, ?_⟩)).mono fun _ _ h => .inl h
      simp [hs, hs']
    | ok file =>
      obtain ⟨id, hlookup, hbytes⟩ := Disk.bytesAt_eq_some h
      have hfile : file.referent = .file id := by
        obtain ⟨-, canRead, canWrite, hopen⟩ := ha.resolve_right nofun
        rcases Disk.openExisting_eq_ok hopen.symm with ⟨-, hdirectory⟩ | ⟨id', hid', hlookup'⟩
        · rw [hlookup] at hdirectory
          cases hdirectory
        · rw [hlookup] at hlookup'
          cases hlookup'
          exact hid'
      have hspare : Spare place.path b file s' := Spare.look ⟨id, hfile, hlookup, hbytes⟩ heq
      refine (spares_probe hsize hlimit hmagic hspare).mono ?_
      rintro memo s'' ⟨hspare', hfound | ⟨hstale, hfailed⟩⟩
      · exact .inr (.inl ⟨file, hfound, hspare'⟩)
      · exact .inr (.inr ⟨hstale, hspare'.bytesAt, hfailed⟩)

/-- A file that was opened was given up, or is to be used as it is. -/
def Kept (path : Path) (b : ByteArray) (opened : Handle × Bool) (s : Disk × List Exchange) : Prop :=
  GivesUp path s.2 ∨ opened.2 = true ∧ Spare path b opened.1 s

theorem spares_openFile (h : s.1.bytesAt place.path.location = some b) :
    Yields (spares place.path b) (Kept place.path b) (FullClient.openFile place size false) s := by
  refine Yields.openFile (Opens place.path b) (Opens place.path b)
    (spares_prepare hsize hlimit hmagic h nofun) ?_ ?_ ?_ ?_
  · rintro reason s (hgives | ⟨file, ⟨⟩, -⟩ | ⟨-, h, hfailed⟩)
    · exact hgives.asks fun _ _ hgives => hgives.yields (fun _ _ h => .inl h) _
    · refine asks_look (r := .caller (.log _)) trivial fun _ s' heq hs _ => ?_
      refine spares_prepare hsize hlimit hmagic ?_ fun _ => ?_
      · rw [heq]
        exact h
      · rw [hs]
        exact hfailed.cons _
  · rintro file s (hgives | ⟨_, ⟨⟩, hspare⟩ | ⟨⟨_, ⟨⟩⟩, -⟩)
    · exact .inl hgives
    · exact .inr ⟨rfl, hspare⟩
  all_goals
    rintro file s (hgives | ⟨_, ⟨⟩, -⟩ | ⟨⟨_, ⟨⟩⟩, -⟩)
    exact .inl hgives

end

theorem Spare.setLength {file : Handle} (h : Spare path b file s) (hpos : 0 < b.size)
    {length : UInt64} (hlength : length.toNat = b.size) {a : Except IoError Unit}
    (hs : Disk.Records (.setLength file length) s a s') : Spare path b file s' := by
  obtain ⟨id, hid, hlookup, hbytes⟩ := h
  have hsize : (s.1.file id).size = b.size := by rw [← Contents.size_bytes, hbytes]
  have hcases : s'.1 = s.1 ∨ s'.1 = s.1.modify id (·.resize length.toNat) := by
    have hafter : s'.1 = s.1 ∨ s'.1 = (s.1.setLength file length).2 := by
      rcases hs.1 with hd | ⟨-, hcut⟩
      · exact .inr (congrArg Prod.snd hd)
      · exact hcut
    rcases Disk.setLength_cases hid s.1 length with ⟨e, heq⟩ | ⟨-, heq⟩
    · rw [heq, or_self] at hafter
      exact .inl hafter
    · rwa [heq] at hafter
  rcases hcases with heq | heq
  · exact Spare.look ⟨id, hid, hlookup, hbytes⟩ heq
  · have hlt : id < s.1.contents.size := Disk.lt_size_of_file (by omega)
    refine ⟨id, hid, ?_, ?_⟩
    · rw [heq]
      exact hlookup
    · rw [heq, Disk.file_modify hlt, if_pos rfl, hlength, ← hsize, Contents.bytes_resize_self,
        hbytes]

variable (H : Hasher)

theorem spares_mapFile (hsize : b.size = size.toNat + 8) (hmagic : b.extract 0 8 = magicBytes.bytes)
    {place : Place} (h : s.1.bytesAt place.path.location = some b) (c : Cache)
    {options : FullOptions} (hforce : options.force = false) :
    Yields (spares place.path b) (fun _ s' => Spared place.path b s')
      (FullClient.mapFile H place size c options) s := by
  cases hcount : Dataset.nodeCount size.toNat with
  | error e => exact Yields.mapFile_of_error hcount (.inl h)
  | ok count =>
    have hbytes := (Dataset.nodeCount_eq_ok hcount).1
    have hlt := count.toNat_lt
    have hlength : (size + Params.magicBytes.toUInt64).toNat = b.size := by
      rw [toNat_add_magicBytes (by omega), hsize]
    refine Yields.mapFile hcount (Kept place.path b) (Kept place.path b)
      (fun opened _ => Kept place.path b opened) ?_ ?_ ?_ ?_ ?_
    · rw [hforce]
      exact spares_openFile hsize (by omega) hmagic h
    · rintro opened s (hgives | ⟨hreuse, hspare⟩)
      · exact hgives.asks fun _ _ hgives => hgives.comes fun _ _ h => .inl h
      · -- the file already has the length that it is set to
        refine ⟨trivial, fun answer s' hs => ?_⟩
        have hspare' := hspare.setLength (by omega) hlength hs
        exact comes_of_bytesAt hspare'.bytesAt fun _ _ => .inr ⟨hreuse, hspare'⟩
    · rintro opened s (hgives | ⟨hreuse, hspare⟩)
      · exact hgives.asks fun _ _ hgives => hgives.comes fun _ _ h => .inl h
      · refine asks_look (r := .map _) trivial fun answer s' heq _ _ => ?_
        exact comes_of_bytesAt (hspare.look heq).bytesAt fun _ _ => .inr ⟨hreuse, hspare.look heq⟩
    · rintro file length s (hgives | ⟨-, hspare⟩)
      · exact hgives.asks fun _ _ h => .inr h
      · exact asks_look (r := .caller (.log _)) trivial fun _ s' heq _ _ =>
          .inl (hspare.look heq).bytesAt
    · rintro file length s (hgives | ⟨⟨⟩, -⟩)
      exact hgives.yields (fun _ _ h => .inr h) _

theorem keeps_inFile_spared (hsize : b.size = size.toNat + 8)
    (hmagic : b.extract 0 8 = magicBytes.bytes) {place : Place}
    (h : s.1.bytesAt place.path.location = some b) (light : LightClient) {options : FullOptions}
    (hforce : options.force = false) :
    Keeps Disk.Records (fun _ _ => True) (fun _ s' => Spared place.path b s')
      (FullClient.inFile H place size light options) s :=
  Yields.inFile (spares_mapFile H hsize hmagic h light.cache hforce) (fun _ _ h => h) fun _ _ h => h

/-- A file of use survives a call that is not forced to make it anew, whatever fails in it, but for two
failures that the call does not end with: it takes a file that cannot be opened for none, and one whose
start cannot be read for one without the magic number, and asks for a file anew. -/
theorem marked_file_survives (H : Hasher) {place : Place} {size : UInt64} {light : LightClient}
    {options : FullOptions} {d d' : Disk} {b : ByteArray} {history : List Exchange}
    {answer : Except FullError FullClient} (hforce : options.force = false)
    (hfile : d.bytesAt place.path.location = some b) (hsize : b.size = size.toNat + 8)
    (hmagic : b.extract 0 8 = magicBytes.bytes)
    (h : Ends Disk.Records (FullClient.inFile H place size light options) (d, []) answer
      (d', history)) :
    d'.bytesAt place.path.location = some b ∨
      ((∃ cause, ⟨.openExisting place.path, .error cause⟩ ∈ history) ∨
        ∃ file cause, ⟨.readMagic file, .error cause⟩ ∈ history) ∧
      ∃ answer, ⟨.create place.path, answer⟩ ∈ history :=
  (keeps_inFile_spared H hsize hmagic hfile light hforce).ends h

def pagePlace : Place := ⟨Path.join, ⟨"/dags"⟩, Params.revision, .zero⟩

def pageLight : LightClient := ⟨.ofSeed .keccak 0 one_lt_size .zero, .zero, none⟩

/-- A file of use: its dataset is all zeros, but nothing checks this. -/
def pageFile : ByteArray := magicBytes.bytes ++ zeroBytes 128

def pageDisk : Disk :=
  ⟨[(["dags", name Params.revision .zero], .file 0), (["dags"], .directory)], #[.ofBytes pageFile], 2 ^ 40⟩

/-- A call over a file system with faults, for a caller that stops every generation. -/
def pageRun (faults : Faults) : Except FullError FullClient × Surroundings × List Exchange :=
  (FullClient.inFile .keccak pagePlace 128 pageLight ⟨none, false, false⟩).run
    (Disk.recording (faults.serveFiles fun _ => .stop)) (⟨pageDisk, #[], #[]⟩, [])

theorem ends_pageRun (faults : Faults) (hsize : faults.sizeIs = none)
    (hcreate : faults.createInstead = none) :
    Ends Disk.Records (FullClient.inFile .keccak pagePlace 128 pageLight ⟨none, false, false⟩)
      (pageDisk, []) (pageRun faults).1 ((pageRun faults).2.1.disk, (pageRun faults).2.2) := by
  have hserve (r : Files.Request) (s : Surroundings) :
      Disk.Serves r s.disk (faults.serveFiles (fun _ => .stop) r s).1
        (faults.serveFiles (fun _ => .stop) r s).2.disk :=
    Disk.serves_faults hsize hcreate _ r s
  unfold pageRun
  exact Disk.ends_recording Surroundings.disk hserve _ (⟨pageDisk, #[], #[]⟩, [])

theorem lookup_pageDisk : pageDisk.lookup pagePlace.path.location = some (.file 0) := by
  decide +kernel

theorem bytesAt_pageDisk : pageDisk.bytesAt pagePlace.path.location = some pageFile := by
  rw [Disk.bytesAt_of_file lookup_pageDisk]
  exact congrArg some (Contents.bytes_ofBytes pageFile)

theorem size_pageFile : pageFile.size = (128 : UInt64).toNat + 8 := by
  rw [pageFile, ByteArray.size_append, magicBytes.size_bytes, size_zeroBytes]
  rfl

theorem extract_pageFile : pageFile.extract 0 8 = magicBytes.bytes := by
  rw [pageFile, ByteArray.extract_append_eq_left]
  exact magicBytes.size_bytes.symm

/-- The file is open for reading only. -/
def readOnly : Faults := { Faults.none with openAccess := .readOnly }

theorem pageRun_readOnly :
    (pageRun readOnly).1.isOk = false ∧ (pageRun readOnly).2.2.any Exchange.isCreate = false := by
  decide +kernel

/-- A file that is open for reading only survives, and the call fails. -/
theorem marked_file_survives_page :
    pageDisk.bytesAt pagePlace.path.location = some pageFile ∧
    (∃ answer, Ends Disk.Records
      (FullClient.inFile .keccak pagePlace 128 pageLight ⟨none, false, false⟩) (pageDisk, [])
      answer ((pageRun readOnly).2.1.disk, (pageRun readOnly).2.2)) ∧
    (pageRun readOnly).1.isOk = false ∧
    (pageRun readOnly).2.1.disk.bytesAt pagePlace.path.location = some pageFile := by
  have hends := ends_pageRun readOnly rfl rfl
  obtain ⟨hfails, hnone⟩ := pageRun_readOnly
  refine ⟨bytesAt_pageDisk, ⟨_, hends⟩, hfails, ?_⟩
  rw [List.any_eq_false] at hnone
  rcases marked_file_survives .keccak rfl bytesAt_pageDisk size_pageFile extract_pageFile hends with
    h | ⟨-, answer, hmem⟩
  · exact h
  · exact absurd rfl (hnone _ hmem)

/-- A file of use survives every call that is not forced and fails, if its path and the history of the
call have `P`. -/
def SparedWhere (P : Path → List Exchange → Prop) : Prop :=
  ∀ (place : Place) (size : UInt64) (light : LightClient) (options : FullOptions) (d d' : Disk)
    (b : ByteArray) (history : List Exchange) (e : FullError), options.force = false →
    d.bytesAt place.path.location = some b → b.size = size.toNat + 8 →
    b.extract 0 8 = magicBytes.bytes →
    Ends Disk.Records (FullClient.inFile .keccak place size light options) (d, []) (.error e)
      (d', history) →
    P place.path history → d'.bytesAt place.path.location = some b

/-- A call fails over a file system with faults, and the file does not survive. -/
def Loses (faults : Faults) : Prop :=
  (pageRun faults).1.isOk = false ∧
    ((pageRun faults).2.1.disk.bytesAt pagePlace.path.location).map (·[0]!) = some 0

theorem Loses.not_sparedWhere {faults : Faults} (h : Loses faults) (hsize : faults.sizeIs = none)
    (hcreate : faults.createInstead = none) {P : Path → List Exchange → Prop}
    (hP : P pagePlace.path (pageRun faults).2.2) : ¬SparedWhere P := by
  intro hspared
  obtain ⟨hfails, hstart⟩ := h
  have hends := ends_pageRun faults hsize hcreate
  cases hrun : (pageRun faults).1 with
  | ok f =>
    rw [hrun] at hfails
    exact absurd hfails Bool.noConfusion
  | error e =>
    rw [hrun] at hends
    have hkept := hspared pagePlace 128 pageLight _ _ _ _ _ e rfl bytesAt_pageDisk size_pageFile
      extract_pageFile hends hP
    rw [hkept] at hstart
    revert hstart
    decide +kernel

/-- No file can be opened. -/
def noOpen : Faults := { Faults.none with failOpen := some "denied" }

/-- The file is open for writing only. -/
def writeOnly : Faults := { Faults.none with openAccess := .writeOnly }

theorem loses_noOpen :
    Loses noOpen ∧ (pageRun noOpen).2.2.any Exchange.isReadError = false := by
  unfold Loses
  decide +kernel

theorem loses_writeOnly :
    Loses writeOnly ∧ (pageRun writeOnly).2.2.any Exchange.isOpenError = false := by
  unfold Loses
  decide +kernel

/-- A file that cannot be opened does not survive, nor does one whose start cannot be read, though the
call fails. -/
theorem marked_file_not_spared :
    ¬SparedWhere (fun _ history => ∀ file cause, ⟨.readMagic file, .error cause⟩ ∉ history) ∧
    ¬SparedWhere (fun path history => ∀ cause, ⟨.openExisting path, .error cause⟩ ∉ history) := by
  constructor
  · obtain ⟨hloses, hnone⟩ := loses_noOpen
    rw [List.any_eq_false] at hnone
    exact hloses.not_sparedWhere rfl rfl fun file cause hmem => hnone _ hmem rfl
  · obtain ⟨hloses, hnone⟩ := loses_writeOnly
    rw [List.any_eq_false] at hnone
    exact hloses.not_sparedWhere rfl rfl fun cause hmem => hnone _ hmem rfl

end DagFile

end ProofOfWork
