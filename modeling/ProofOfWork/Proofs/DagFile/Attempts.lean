import ProofOfWork.Proofs.DagFile.Trusted
import ProofOfWork.Proofs.DagFile.Yields

/-! Calls at work on one DAG file, step by step, with the steps of calls at work on other files between
their own. Whatever the file system does and wherever a call is cut off, all DAG files can be trusted;
what a step is for is true only when it succeeds. -/

namespace ProofOfWork.DagFile

open Program Files

/-- A call at work on the file at `place`. -/
structure Work where
  hasher : Hasher
  places : Set Location
  own : Location → Cache → Prop
  place : Location
  handed : Option Cache
  mem_places : place ∈ places
  own_handed : ∀ c, handed = some c → own place c

/-- The requests that only look at a file system, or wait for it. -/
def Looks : Files.Request → Prop
  | .makeDirectory _ => False
  | .create _ => False
  | .write _ _ _ => False
  | .setLength _ _ => False
  | .store _ _ _ => False
  | _ => True

theorem Looks.cut {r : Files.Request} (hr : Looks r) {d d' : Disk} (h : Disk.Cut r d d') :
    d' = d := by
  cases r <;> first | exact hr.elim | exact h

theorem Looks.does {r : Files.Request} (hr : Looks r) {d d' : Disk} {a : Files.Answer r}
    (h : Disk.Does r d a d') : d' = d := by
  cases r <;> first | exact hr.elim | exact h | exact h.1

theorem Looks.after {r : Files.Request} (hr : Looks r) (handed : Option Cache) (l : Ledger)
    (a : Files.Answer r) : l.after handed r a = l := by
  cases r <;> first | exact hr.elim | rfl

theorem after_of_refuses {r : Files.Request} {a : Files.Answer r} (h : Disk.Refuses r a)
    (handed : Option Cache) (l : Ledger) : l.after handed r a = l := by
  cases r with
  | create path =>
    obtain ⟨e, rfl⟩ := h
    rfl
  | _ => rfl

namespace Work

variable (w : Work)

abbrev Trusted (s : Disk × Ledger) : Prop := DagFile.Trusted w.hasher w.places w.own s

abbrev Moves (s s' : Disk × Ledger) : Prop := DagFile.Moves w.hasher w.places w.own w.place s s'

/-- What calls at work on other files may do while this one waits. -/
structure Waits (s s' : Disk × Ledger) : Prop where
  trusted : w.Trusted s'
  here : SameAt w.place s s'

/-- The file system as the call sees it: between its own steps others are taken. -/
def Beside : Serving Files (Disk × Ledger) :=
  fun r s a s' => ∃ s₁, Disk.Notes w.handed r s a s₁ ∧ w.Waits s₁ s'

/-- A request that may be made, and cut off. -/
structure Safe (r : Files.Request) (s : Disk × Ledger) : Prop where
  trusted : w.Trusted s
  cut : ∀ s', Disk.CutBeside r s s' → w.Moves s s'
  served : ∀ a s', Disk.Notes w.handed r s a s' → w.Moves s s'

/-- A call may only make safe requests, and may fail where all files can be trusted. -/
abbrev terms : Terms (Disk × Ledger) := ⟨w.Beside, w.Safe, fun _ => w.Trusted⟩

/-- The file that the call is at work on is open, with contents `c`, and made for `cache`. -/
structure Has (file : Handle) (id : Nat) (c : Contents) (cache : Option Cache) (s : Disk × Ledger) :
    Prop where
  trusted : w.Trusted s
  referent : file.referent = .file id
  lookup : s.1.lookup w.place = some (.file id)
  contents : s.1.file id = c
  ledger : s.2 id = cache

variable {w} {s s' s'' : Disk × Ledger} {file : Handle} {id : Nat} {c : Contents}
  {cache : Option Cache}

theorem Waits.refl (h : w.Trusted s) : w.Waits s s := ⟨h, .refl _ _⟩

theorem Waits.trans (h : w.Waits s s') (h' : w.Waits s' s'') : w.Waits s s'' :=
  ⟨h'.trusted, h.here.trans h'.here⟩

theorem Has.waits (h : w.Has file id c cache s) (hw : w.Waits s s') : w.Has file id c cache s' where
  trusted := hw.trusted
  referent := h.referent
  lookup := (hw.here.lookup_iff id).mpr h.lookup
  contents := (hw.here.file_eq id h.lookup).trans h.contents
  ledger := (hw.here.ledger_eq id h.lookup).trans h.ledger

theorem Has.sound (h : w.Has file id c cache s) : Sound w.hasher cache c := by
  have hsound := h.trusted.sound w.place w.mem_places id h.lookup
  rw [h.contents, h.ledger] at hsound
  exact hsound

theorem Has.moves (h : w.Has file id c cache s) {f : Contents → Contents}
    (hsound : Sound w.hasher cache (f c)) : w.Moves s (s.1.modify id f, s.2) := by
  refine h.trusted.modify w.mem_places h.lookup ?_
  rw [h.contents, h.ledger]
  exact hsound

theorem Has.modify (h : w.Has file id c cache s) {f : Contents → Contents}
    (hsound : Sound w.hasher cache (f c)) : w.Has file id (f c) cache (s.1.modify id f, s.2) where
  trusted := (h.moves hsound).trusted
  referent := h.referent
  lookup := h.lookup
  contents := by
    rw [Disk.file_modify (h.trusted.inRange w.place w.mem_places id h.lookup), if_pos rfl,
      h.contents]
  ledger := h.ledger

theorem safe_of {r : Files.Request} (h : w.Trusted s)
    (hcut : ∀ d', Disk.Cut r s.1 d' → w.Moves s (d', s.2))
    (hdoes : ∀ a d', Disk.Does r s.1 a d' → w.Moves s (d', s.2.after w.handed r a)) :
    w.Safe r s := by
  refine ⟨h, ?_, ?_⟩
  · rintro ⟨d', l'⟩ ⟨hc, hl⟩
    obtain rfl : l' = s.2 := hl
    exact hcut d' hc
  · rintro a ⟨d', l'⟩ ⟨hserves, hl⟩
    obtain rfl : l' = s.2.after w.handed r a := hl
    rcases hserves with hd | ⟨ha, hc⟩
    · exact hdoes a d' hd
    · rw [after_of_refuses ha]
      exact hcut d' hc

/-- A request that changes nothing may be made at any time. -/
theorem safe_of_looks {r : Files.Request} (hr : Looks r) (h : w.Trusted s) : w.Safe r s := by
  refine safe_of h (fun d' hc => ?_) fun a d' hd => ?_
  · obtain rfl := hr.cut hc
    exact h.moves_refl
  · obtain rfl := hr.does hd
    rw [hr.after]
    exact h.moves_refl

theorem waits_of_looks {r : Files.Request} (hr : Looks r) {a : Files.Answer r}
    (h : w.Beside r s a s') : (Disk.Does r s.1 a s.1 ∨ Disk.Refuses r a) ∧ w.Waits s s' := by
  obtain ⟨⟨d₁, l₁⟩, ⟨hserves, hl⟩, hwaits⟩ := h
  obtain rfl : l₁ = s.2 := hl.trans (hr.after _ _ _)
  rcases hserves with hd | ⟨ha, hcut⟩
  · obtain rfl : d₁ = s.1 := hr.does hd
    exact ⟨.inl hd, hwaits⟩
  · obtain rfl : d₁ = s.1 := hr.cut hcut
    exact ⟨.inr ha, hwaits⟩

section

variable {β : Type} {Q : β → Disk × Ledger → Prop} {activity : Activity} {path : Path}

theorem asks_look {r : Files.Request} (hr : Looks r) (h : w.Trusted s) :
    Asks w.terms r (fun a s' => (Disk.Does r s.1 a s.1 ∨ Disk.Refuses r a) ∧ w.Waits s s') s :=
  ⟨safe_of_looks hr h, fun _ _ hs => waits_of_looks hr hs⟩

theorem notes_waits (h : w.Trusted s) (event : Event) : Notes w.terms event (w.Waits s) s :=
  (asks_look (r := .caller (.log event)) trivial h).mono fun _ _ h => h.2

theorem comes_of_trusted {answer : Except IoError β} (h : w.Trusted s)
    (hQ : ∀ b, answer = .ok b → Q b s) : Comes w.terms activity path Q answer s :=
  meets_of (fun _ _ => (notes_waits h _).mono fun _ _ hwaits => hwaits.trusted) hQ

theorem comes_look {r : Files.Request} {g : Files.Answer r → Except IoError β} (hr : Looks r)
    (hrefuses : ∀ a, Disk.Refuses r a → ∃ cause, g a = .error cause) (h : w.Trusted s)
    (hQ : ∀ a b s', Disk.Does r s.1 a s.1 → g a = .ok b → w.Waits s s' → Q b s') :
    Asks w.terms r (fun a => Comes w.terms activity path Q (g a)) s := by
  refine (asks_look hr h).mono fun a s' ⟨ha, hwaits⟩ => ?_
  refine comes_of_trusted hwaits.trusted fun b hb => ?_
  rcases ha with hdoes | ha
  · exact hQ a b s' hdoes hb hwaits
  · obtain ⟨cause, hcause⟩ := hrefuses a ha
    rw [hb] at hcause
    contradiction

/-- A request that is carried out, or fails and leaves all files to be trusted. -/
theorem asks_of_safe {r : Files.Request} {P : Files.Answer r → Disk × Ledger → Prop}
    (hsafe : w.Safe r s)
    (hdoes : ∀ a d' s', Disk.Does r s.1 a d' → w.Waits (d', s.2.after w.handed r a) s' → P a s')
    (hrefuses : ∀ a s', Disk.Refuses r a → w.Trusted s' → P a s') : Asks w.terms r P s := by
  refine ⟨hsafe, ?_⟩
  rintro a s' ⟨⟨d₁, l₁⟩, ⟨hserves, hl⟩, hwaits⟩
  obtain rfl : l₁ = s.2.after w.handed r a := hl
  rcases hserves with hd | ⟨ha, -⟩
  · exact hdoes a d₁ s' hd hwaits
  · exact hrefuses a s' ha hwaits.trusted

/-! ### Requests that change the disk -/

theorem asks_makeDirectory {dir : Path} (h : w.Trusted s) :
    Asks w.terms (.makeDirectory dir) (Comes w.terms activity path fun _ => w.Trusted) s := by
  have hsafe : w.Safe (.makeDirectory dir) s :=
    safe_of h (fun d' hcut => h.sameFiles hcut) fun a d' hd => h.sameFiles hd
  refine asks_of_safe hsafe (fun a d' s' _ hwaits => ?_) fun a s' _ hs' => ?_
  · exact comes_of_trusted hwaits.trusted fun _ _ => hwaits.trusted
  · exact comes_of_trusted hs' fun _ _ => hs'

section

variable {d' : Disk} (h : w.Trusted s) (hcreated : Disk.Created s.1 w.place id d')

include h hcreated

/-- A call that is cut off may leave a new file that the ledger does not know of. -/
theorem moves_of_created_cut : w.Moves s (d', s.2) := by
  refine h.created w.mem_places hcreated (fun _ _ => rfl) fun c hc => ?_
  rcases hcreated.before with hbefore | hbefore
  · exact h.owned w.place w.mem_places id hbefore c hc
  · rw [h.unused id (Nat.le_of_eq hbefore.symm)] at hc
    contradiction

theorem moves_of_created (path : Path) (canRead canWrite : Bool) :
    w.Moves s (d', s.2.after w.handed (.create path) (.ok ⟨.file id, canRead, canWrite⟩)) :=
  h.created w.mem_places hcreated (fun _ hi => if_neg hi) fun c hc =>
    w.own_handed c ((if_pos rfl).symm.trans hc)

theorem has_of_created (path : Path) (canRead canWrite : Bool) :
    w.Has ⟨.file id, canRead, canWrite⟩ id .empty w.handed
      (d', s.2.after w.handed (.create path) (.ok ⟨.file id, canRead, canWrite⟩)) where
  trusted := (moves_of_created h hcreated path canRead canWrite).trusted
  referent := rfl
  lookup := hcreated.lookup_eq
  contents := hcreated.empty
  ledger := if_pos rfl

end

theorem asks_create {file : Path} (hfile : file.location = w.place) (h : w.Trusted s) :
    Asks w.terms (.create file)
      (Comes w.terms activity path fun file s' => ∃ id, w.Has file id .empty w.handed s') s := by
  have hcases := Disk.create_cases (d := s.1) (p := file)
  rw [hfile] at hcases
  have hcases := hcases (h.inRange w.place w.mem_places)
  refine asks_of_safe (safe_of h (fun d' hcut => ?_) ?_) ?_ fun a s' ha hs' => ?_
  · rcases hcut with rfl | rfl
    · exact h.moves_refl
    rcases hcases true true with ⟨e, heq⟩ | ⟨id, d', heq, hcreated⟩
    · rw [heq]
      exact h.moves_refl
    · rw [heq]
      exact moves_of_created_cut h hcreated
  · rintro a d' ⟨canRead, canWrite, hd⟩
    rcases hcases canRead canWrite with ⟨e, heq⟩ | ⟨id, d₁, heq, hcreated⟩
    · obtain ⟨rfl, rfl⟩ := Prod.mk.inj (hd.trans heq)
      exact h.moves_refl
    · obtain ⟨rfl, rfl⟩ := Prod.mk.inj (hd.trans heq)
      exact moves_of_created h hcreated file canRead canWrite
  · rintro a d' s' ⟨canRead, canWrite, hd⟩ hwaits
    rcases hcases canRead canWrite with ⟨e, heq⟩ | ⟨id, d₁, heq, hcreated⟩
    · obtain ⟨rfl, rfl⟩ := Prod.mk.inj (hd.trans heq)
      exact comes_of_trusted hwaits.trusted fun _ hb => by contradiction
    · obtain ⟨rfl, rfl⟩ := Prod.mk.inj (hd.trans heq)
      exact ⟨id, (has_of_created h hcreated file canRead canWrite).waits hwaits⟩
  · obtain ⟨e, rfl⟩ := ha
    exact comes_of_trusted hs' fun _ hb => by contradiction

section

variable {x : Except IoError Unit × Disk} {g : Contents → Contents}

/-- A call that changes the file, or fails and leaves the disk as it was. -/
theorem Has.moves_of_cases (h : w.Has file id c cache s)
    (hx : (∃ e, x = (.error e, s.1)) ∨ Sound w.hasher cache (g c) ∧ x = (.ok (), s.1.modify id g)) :
    w.Moves s (x.2, s.2) := by
  rcases hx with ⟨e, rfl⟩ | ⟨hsound, rfl⟩
  · exact h.trusted.moves_refl
  · exact h.moves hsound

theorem Has.comes_of_cases (h : w.Has file id c cache s)
    (hx : (∃ e, x = (.error e, s.1)) ∨ Sound w.hasher cache (g c) ∧ x = (.ok (), s.1.modify id g))
    (hwaits : w.Waits (x.2, s.2) s') :
    Comes w.terms activity path (fun _ => w.Has file id (g c) cache) x.1 s' := by
  rcases hx with ⟨e, rfl⟩ | ⟨hsound, rfl⟩
  · exact comes_of_trusted hwaits.trusted fun _ hb => by contradiction
  · exact (h.modify hsound).waits hwaits

end

theorem Has.asks_write {position : UInt64} {data : ByteArray} (h : w.Has file id c cache s)
    (hsound : ∀ n, Sound w.hasher cache (c.write position.toNat (data.extract 0 n))) :
    Asks w.terms (.write file position data) (Comes w.terms activity path fun _ =>
      w.Has file id (c.write position.toNat data) cache) s := by
  have hcases (n : Nat) := (Disk.write_cases h.referent s.1 position (data.extract 0 n)).imp_right
    fun heq => And.intro (hsound n) heq
  have hall := hcases data.size
  rw [ByteArray.extract_zero_size] at hall
  refine asks_of_safe (safe_of h.trusted ?_ fun a d' hd => ?_) (fun a d' s' hd hwaits => ?_)
    fun a s' ha hs' => ?_
  · rintro d' ⟨n, rfl⟩
    exact h.moves_of_cases (g := (·.write _ (data.extract 0 n))) (hcases n)
  · rw [← show (a, d') = s.1.write file position data from hd] at hall
    exact h.moves_of_cases (g := (·.write _ data)) hall
  · rw [← show (a, d') = s.1.write file position data from hd] at hall
    exact h.comes_of_cases (g := (·.write _ data)) hall hwaits
  · obtain ⟨e, rfl⟩ := ha
    exact comes_of_trusted hs' fun _ hb => by contradiction

theorem Has.asks_setLength {length : UInt64} (h : w.Has file id c cache s)
    (hsound : length.toNat < 2 ^ 63 → Sound w.hasher cache (c.resize length.toNat)) :
    Asks w.terms (.setLength file length) (Comes w.terms activity path fun _ =>
      w.Has file id (c.resize length.toNat) cache) s := by
  have hcases := (Disk.setLength_cases h.referent s.1 length).imp_right
    fun ⟨hlimit, heq⟩ => And.intro (hsound hlimit) heq
  refine asks_of_safe (safe_of h.trusted ?_ fun a d' hd => ?_) (fun a d' s' hd hwaits => ?_)
    fun a s' ha hs' => ?_
  · rintro d' (rfl | rfl)
    · exact h.trusted.moves_refl
    · exact h.moves_of_cases (g := (·.resize _)) hcases
  · rw [← show (a, d') = s.1.setLength file length from hd] at hcases
    exact h.moves_of_cases (g := (·.resize _)) hcases
  · rw [← show (a, d') = s.1.setLength file length from hd] at hcases
    exact h.comes_of_cases (g := (·.resize _)) hcases hwaits
  · obtain ⟨e, rfl⟩ := ha
    exact comes_of_trusted hs' fun _ hb => by contradiction

/-- Bytes may be stored in the file if it stays sound whatever part of them is. -/
theorem Has.asks_store {offset : Nat} {data : ByteArray} (h : w.Has file id c cache s)
    (hsound : ∀ n, Sound w.hasher cache (c.overwrite offset (data.extract 0 n))) :
    Asks w.terms (.store file offset data)
      (fun _ => w.Has file id (c.overwrite offset data) cache) s := by
  have hall := hsound data.size
  rw [ByteArray.extract_zero_size] at hall
  refine asks_of_safe (safe_of h.trusted ?_ fun a d' hd => ?_) (fun a d' s' hd hwaits => ?_)
    fun _ _ hfalse _ => hfalse.elim
  · rintro d' ⟨n, rfl⟩
    rw [Disk.store_eq h.referent]
    exact h.moves (hsound n)
  · obtain rfl : d' = s.1.store file offset data := hd
    rw [Disk.store_eq h.referent]
    exact h.moves hall
  · obtain rfl : d' = s.1.store file offset data := hd
    rw [Disk.store_eq h.referent] at hwaits
    exact (h.modify (f := (·.overwrite offset data)) hall).waits hwaits

end

end Work

end ProofOfWork.DagFile
