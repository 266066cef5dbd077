import ProofOfWork.Program

/-! Programs in surroundings that may answer a request in more than one way. `Reaches` says how far a
program may come in such surroundings, and `Keeps` says what holds at every request on the way and at
the end, whatever the answers are. -/

namespace ProofOfWork

/-- What surroundings with states in `σ` may do with a request that is made in a state: the answers
that they may give, and the states that they may then be in. -/
abbrev Serving (I : Interface) (σ : Type) : Type :=
  (r : I.Request) → σ → I.Answer r → σ → Prop

/-- The surroundings in which `serve` answers. -/
def Serving.of {I : Interface} {σ : Type} (serve : (r : I.Request) → StateM σ (I.Answer r)) :
    Serving I σ := fun r s a s' => serve r s = (a, s')

namespace Program

variable {I J : Interface} {α β σ τ : Type}

/-- `p`, started in the state `s`, may come to a point where `p'` is left to be done in the state
`s'`. -/
inductive Reaches (W : Serving I σ) : Program I α → σ → Program I α → σ → Prop
  | refl (p : Program I α) (s : σ) : Reaches W p s p s
  | ask {r : I.Request} {next : I.Answer r → Program I α} {s s' s'' : σ} {a : I.Answer r}
      {p' : Program I α} :
      W r s a s' → Reaches W (next a) s' p' s'' → Reaches W (.ask r next) s p' s''

/-- `p`, started in the state `s`, may end in the value `a` and the state `s'`. -/
def Ends (W : Serving I σ) (p : Program I α) (s : σ) (a : α) (s' : σ) : Prop :=
  Reaches W p s (.done a) s'

/-- However its requests are answered, `p` makes a request `r` only in states with `P r`, and ends
only in values and states with `Q`. -/
def Keeps (W : Serving I σ) (P : I.Request → σ → Prop) (Q : α → σ → Prop) : Program I α → σ → Prop
  | .done a, s => Q a s
  | .ask r next, s => P r s ∧ ∀ a s', W r s a s' → Keeps W P Q (next a) s'

theorem Reaches.trans {W : Serving I σ} {p p' p'' : Program I α} {s s' s'' : σ}
    (h : Reaches W p s p' s') (h' : Reaches W p' s' p'' s'') : Reaches W p s p'' s'' := by
  induction h with
  | refl => exact h'
  | ask hW _ ih => exact .ask hW (ih h')

theorem Reaches.bind {W : Serving I σ} {p p' : Program I β} {s s' : σ} (h : Reaches W p s p' s')
    (f : β → Program I α) : Reaches W (p >>= f) s (p' >>= f) s' := by
  induction h with
  | refl => exact .refl _ _
  | ask hW _ ih => exact .ask hW ih

theorem ends_perform {W : Serving I σ} {r : I.Request} {s s' : σ} {a : I.Answer r} :
    Ends W (perform r) s a s' ↔ W r s a s' := by
  constructor
  · intro h
    cases h with
    | ask hW h =>
      cases h with
      | refl => exact hW
  · intro hW
    exact .ask hW (.refl _ _)

theorem Reaches.of_bind {W : Serving I σ} {p : Program I β} {f : β → Program I α} {s s'' : σ} {a : α}
    (h : Ends W (p >>= f) s a s'') : ∃ b s', Ends W p s b s' ∧ Ends W (f b) s' a s'' := by
  induction p generalizing s with
  | done b => exact ⟨b, s, .refl _ _, h⟩
  | ask r next ih =>
    cases h with
    | ask hW h =>
      obtain ⟨b, s', hp, hf⟩ := ih _ h
      exact ⟨b, s', .ask hW hp, hf⟩

section

variable {W : Serving I σ} {P P' : I.Request → σ → Prop} {Q Q' : α → σ → Prop}

@[simp] theorem keeps_done (a : α) (s : σ) : Keeps W P Q (.done a) s ↔ Q a s := Iff.rfl

theorem keeps_trivial (p : Program I α) (s : σ) :
    Keeps W (fun _ _ => True) (fun _ _ => True) p s := by
  induction p generalizing s with
  | done a => trivial
  | ask r next ih => exact ⟨trivial, fun a s' _ => ih a s'⟩

theorem Keeps.mono {p : Program I α} {s : σ} (h : Keeps W P Q p s)
    (hP : ∀ r s, P r s → P' r s) (hQ : ∀ a s, Q a s → Q' a s) : Keeps W P' Q' p s := by
  induction p generalizing s with
  | done a => exact hQ a s h
  | ask r next ih => exact ⟨hP r s h.1, fun a s' hW => ih a (h.2 a s' hW)⟩

theorem Keeps.bind {p : Program I β} {f : β → Program I α} {R : β → σ → Prop} {s : σ}
    (h : Keeps W P R p s) (hf : ∀ b s', R b s' → Keeps W P Q (f b) s') :
    Keeps W P Q (p >>= f) s := by
  induction p generalizing s with
  | done b => exact hf b s h
  | ask r next ih => exact ⟨h.1, fun a s' hW => ih a (h.2 a s' hW)⟩

theorem Keeps.and {p : Program I α} {s : σ} (h : Keeps W P Q p s) (h' : Keeps W P' Q' p s) :
    Keeps W (fun r s => P r s ∧ P' r s) (fun a s => Q a s ∧ Q' a s) p s := by
  induction p generalizing s with
  | done a => exact ⟨h, h'⟩
  | ask r next ih => exact ⟨⟨h.1, h'.1⟩, fun a s' hW => ih a (h.2 a s' hW) (h'.2 a s' hW)⟩

theorem Keeps.reaches {p p' : Program I α} {s s' : σ} (h : Keeps W P Q p s)
    (hr : Reaches W p s p' s') : Keeps W P Q p' s' := by
  induction hr with
  | refl => exact h
  | ask hW _ ih => exact ih (h.2 _ _ hW)

theorem Keeps.ends {p : Program I α} {s s' : σ} {a : α} (h : Keeps W P Q p s)
    (he : Ends W p s a s') : Q a s' := h.reaches he

theorem Keeps.invariant {Inv : σ → Prop}
    (hInv : ∀ r s a s', P r s → W r s a s' → Inv s → Inv s') {p : Program I α} {s : σ}
    (h : Keeps W P Q p s) (hs : Inv s) : Keeps W P (fun a s' => Q a s' ∧ Inv s') p s := by
  induction p generalizing s with
  | done a => exact ⟨h, hs⟩
  | ask r next ih => exact ⟨h.1, fun a s' hW => ih a (h.2 a s' hW) (hInv r s a s' h.1 hW hs)⟩

/-- The value and the state of an end are values and states that the program may end in. -/
theorem Keeps.and_ends {p : Program I α} {s : σ} (h : Keeps W P Q p s) :
    Keeps W P (fun a s' => Q a s' ∧ Ends W p s a s') p s := by
  induction p generalizing s with
  | done a => exact ⟨h, .refl _ _⟩
  | ask r next ih =>
    refine ⟨h.1, fun a s' hW => (ih a (h.2 a s' hW)).mono (fun _ _ h => h) ?_⟩
    rintro b s'' ⟨hQ, he⟩
    exact ⟨hQ, .ask hW he⟩

end

/-! ### Surroundings that follow others -/

/-- What `p` keeps in `V` it keeps in all surroundings that follow `V`: those in which each request,
made in a state that matches one of `V`, ends in a state that matches one which `V` may end in. -/
theorem Keeps.follow {V : Serving I σ} {W : Serving I τ} {Match : σ → τ → Prop}
    {L : I.Request → σ → Prop} {P : I.Request → τ → Prop} {Q : α → σ → Prop}
    (hfollow : ∀ r m s, L r m → Match m s →
      P r s ∧ ∀ a s', W r s a s' → ∃ m', V r m a m' ∧ Match m' s')
    {p : Program I α} {m : σ} {s : τ} (h : Keeps V L Q p m) (hm : Match m s) :
    Keeps W P (fun a s' => ∃ m', Match m' s' ∧ Q a m') p s := by
  induction p generalizing m s with
  | done a => exact ⟨m, hm, h⟩
  | ask r next ih =>
    obtain ⟨hP, hW⟩ := hfollow r m s h.1 hm
    refine ⟨hP, fun a s' hs => ?_⟩
    obtain ⟨m', hV, hm'⟩ := hW a s' hs
    exact ih a (h.2 a m' hV) hm'

/-- Where the requests of `p` in `V` are requests in `W`, so is all that `p` does. -/
theorem Keeps.image {V : Serving I σ} {W : Serving I τ} {f : σ → τ} {L : I.Request → σ → Prop}
    {Q : α → σ → Prop} (hstep : ∀ r m a m', L r m → V r m a m' → W r (f m) a (f m'))
    {p p' : Program I α} {m m' : σ} (h : Keeps V L Q p m) (hr : Reaches V p m p' m') :
    Reaches W p (f m) p' (f m') := by
  induction hr with
  | refl => exact .refl _ _
  | ask hV _ ih => exact .ask (hstep _ _ _ _ h.1 hV) (ih (h.2 _ _ hV))

/-! ### Surroundings that are a function -/

section

variable {serve : (r : I.Request) → StateM σ (I.Answer r)} {P : I.Request → σ → Prop}
  {Q : α → σ → Prop}

theorem ends_run (p : Program I α) (s : σ) :
    Ends (.of serve) p s (p.run serve s).1 (p.run serve s).2 := by
  induction p generalizing s with
  | done a => exact .refl _ _
  | ask r next ih => exact .ask rfl (ih _ _)

theorem Keeps.run {p : Program I α} {s : σ} (h : Keeps (.of serve) P Q p s) :
    Q (p.run serve s).1 (p.run serve s).2 := h.ends (ends_run p s)

/-- A run, as it is seen by `view` in surroundings that may do all that is done in it. -/
theorem ends_view {W : Serving I τ} (view : σ → τ)
    (hserve : ∀ r s, W r (view s) (serve r s).1 (view (serve r s).2)) (p : Program I α) (s : σ) :
    Ends W p (view s) (p.run serve s).1 (view (p.run serve s).2) := by
  refine (keeps_trivial p s).image (fun r s a s' _ hs => ?_) (ends_run p s)
  obtain ⟨rfl, rfl⟩ := Prod.mk.inj (show serve r s = (a, s') from hs)
  exact hserve r s

end

theorem ends_eval {answer : (r : I.Request) → I.Answer r} (p : Program I α) :
    Ends (fun r (_ : Unit) a _ => a = answer r) p () (p.eval answer) () := by
  induction p with
  | done a => exact .refl _ _
  | ask r next ih => exact .ask rfl (ih _)

/-! ### Programs that serve the requests of others -/

section

variable {W : Serving J τ} {P : I.Request → τ → Prop} {P' : J.Request → τ → Prop}
  {Q : α → τ → Prop}

/-- A program is run by programs that serve its requests: what it keeps in the surroundings that
these make up, the run keeps, if they keep `P'` on the way. -/
theorem Keeps.through {answer : (r : I.Request) → Program J (I.Answer r)} {p : Program I α} {s : τ}
    (hanswer : ∀ r s, P r s → Keeps W P' (fun _ _ => True) (answer r) s)
    (h : Keeps (fun r s a s' => Ends W (answer r) s a s') P Q p s) :
    Keeps W P' Q (p.run answer) s := by
  induction p generalizing s with
  | done a => exact h
  | ask r next ih =>
    rw [run_ask]
    refine (hanswer r s h.1).and_ends.bind ?_
    rintro a s' ⟨-, he⟩
    exact ih a (h.2 a s' he)

/-- The same for programs that also have a state of their own. -/
theorem Keeps.throughState {P : I.Request → σ × τ → Prop} {Q : α → σ × τ → Prop}
    {answer : (r : I.Request) → StateT σ (Program J) (I.Answer r)} {p : Program I α} {m : σ} {s : τ}
    (hanswer : ∀ r m s, P r (m, s) → Keeps W P' (fun _ _ => True) (answer r m) s)
    (h : Keeps (fun r s a s' => Ends W (answer r s.1) s.2 (a, s'.1) s'.2) P Q p (m, s)) :
    Keeps W P' (fun x s' => Q x.1 (x.2, s')) (p.run answer m) s := by
  induction p generalizing m s with
  | done a => exact h
  | ask r next ih =>
    refine (hanswer r m s h.1).and_ends.bind ?_
    rintro ⟨a, m'⟩ s' ⟨-, he⟩
    exact ih a (h.2 a (m', s') he)

theorem Reaches.throughState {answer : (r : I.Request) → StateT σ (Program J) (I.Answer r)}
    {p : Program I α} {a : α} {s s' : σ × τ}
    (h : Ends (fun r s a s' => Ends W (answer r s.1) s.2 (a, s'.1) s'.2) p s a s') :
    Ends W (p.run answer s.1) s.2 (a, s'.1) s'.2 := by
  induction p generalizing s with
  | done b => cases h with | refl => exact .refl _ _
  | ask r next ih =>
    cases h with
    | ask hW h => exact (hW.bind fun x => (next x.1).run answer x.2).trans (ih _ h)

end

end Program

end ProofOfWork
