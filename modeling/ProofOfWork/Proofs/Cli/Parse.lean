import ProofOfWork.Cli.Parse
import ProofOfWork.Proofs.Text.Numeral

/-! Command lines that are made of arguments of the form `--name=value`. -/

namespace ProofOfWork.Cli

theorem Word.of_long {name : List Char} (h : '=' ∉ name) (value : List Char) :
    Word.of ('-' :: '-' :: (name ++ '=' :: value)) = .long name (some value) := by
  have hall : ∀ c ∈ name, (c != '=') = true := fun c hc => bne_iff_ne.mpr (by rintro rfl; exact h hc)
  have hname : (name ++ '=' :: value).takeWhile (· != '=') = name := by
    rw [List.takeWhile_append_of_pos hall, List.takeWhile_cons_of_neg (by decide), List.append_nil]
  have hvalue : (name ++ '=' :: value).drop (name.length + 1) = value := by
    rw [← List.drop_drop, List.drop_left, List.drop_one, List.tail_cons]
  rw [Word.of.eq_2 _ (by simp), hname, hvalue, if_pos (by simp)]

theorem Opt.name_injective {o o' : Opt} (h : o.name.toList = o'.name.toList) : o = o' := by
  revert h
  cases o <;> cases o' <;> decide

theorem Opt.find?_name {options : List Opt} {o : Opt} (h : o ∈ options) :
    options.find? (·.name.toList = o.name.toList) = some o := by
  have hsome : (options.find? (·.name.toList = o.name.toList)).isSome :=
    List.find?_isSome.mpr ⟨o, h, by simp⟩
  obtain ⟨found, hfound⟩ := Option.isSome_iff_exists.mp hsome
  have hname := List.find?_some hfound
  rw [hfound, Opt.name_injective (of_decide_eq_true hname)]

/-- An option with the text that is given for it, and the value that the text has. -/
structure Given where
  option : Opt
  text : String
  value : Value
  takesValue : option.takesValue = true
  read : option.read text.toList = .ok value

namespace Given

def argument (g : Given) : String := "--" ++ g.option.name ++ "=" ++ g.text

def setting (g : Given) : Opt × Value := (g.option, g.value)

theorem toList_argument (g : Given) :
    g.argument.toList = '-' :: '-' :: (g.option.name.toList ++ '=' :: g.text.toList) := by
  have hdashes : "--".toList = ['-', '-'] := rfl
  have hequals : "=".toList = ['='] := rfl
  simp [argument, hdashes, hequals]

theorem assign (g : Given) {s : Settings} (hnew : s.has g.option = false) :
    s.assign g.option (some g.text.toList) = .ok (g.setting :: s) := by
  obtain ⟨o, text, v, htakes, hread⟩ := g
  cases o <;> first
    | (cases htakes; done)
    | simp_all [Settings.assign, Opt.takesValue, Except.mapError, Except.map, setting]

theorem next (g : Given) {options : List Opt} {stray : UsageError} {s : Settings}
    (ho : g.option ∈ options) (hnew : s.has g.option = false) :
    Reading.next options stray ⟨s, none, false⟩ g.argument.toList =
      .ok ⟨g.setting :: s, none, false⟩ := by
  have hname : '=' ∉ g.option.name.toList := by cases g.option <;> decide
  rw [toList_argument, Reading.next, if_neg nofun, Word.of_long hname]
  dsimp only
  rw [Reading.long, Opt.find?_name ho]
  simp only [g.takesValue, Reading.set, Reading.settle]
  show (fun s' => _) <$> s.assign g.option (some g.text.toList) = _
  rw [g.assign hnew]
  rfl

end Given

theorem Settings.has_cons (g : Given) (s : Settings) (o : Opt) :
    Settings.has (g.setting :: s) o = (decide (o = g.option) || s.has o) := by
  rw [Settings.has, Given.setting, List.lookup_cons]
  by_cases h : o = g.option
  · simp [h]
  · simp [h, Settings.has, beq_false_of_ne h]

theorem foldlM_given {options : List Opt} {given : List Given}
    (hoptions : ∀ g ∈ given, g.option ∈ options) (hnodup : (given.map Given.option).Nodup)
    {s : Settings} (hnew : ∀ g ∈ given, s.has g.option = false) :
    (given.map Given.argument).foldlM (fun (r : Reading) argument =>
      r.next options (.unknownArgument argument) argument.toList) ⟨s, none, false⟩ =
      .ok ⟨(given.map Given.setting).reverse ++ s, none, false⟩ := by
  induction given generalizing s with
  | nil => rfl
  | cons g given ih =>
    simp only [List.map_cons, List.nodup_cons, List.forall_mem_cons] at hoptions hnodup hnew
    rw [List.map_cons, List.foldlM_cons, g.next hoptions.1 hnew.1]
    have hrest : ∀ g' ∈ given, Settings.has (g.setting :: s) g'.option = false := by
      intro g' hg'
      rw [Settings.has_cons, hnew.2 g' hg', Bool.or_false, decide_eq_false_iff_not]
      exact fun heq => hnodup.1 (heq ▸ List.mem_map_of_mem hg')
    have hgiven := ih hoptions.2 hnodup.2 hrest
    rw [List.map_cons, List.reverse_cons, List.append_assoc, List.singleton_append]
    exact hgiven

/-- Options that are given once each are all set. -/
theorem readOptions_given {name : CommandName} {given : List Given}
    (hoptions : ∀ g ∈ given, g.option ∈ name.options) (hnodup : (given.map Given.option).Nodup) :
    readOptions name (given.map Given.argument) = .ok (given.map Given.setting).reverse := by
  have hnew : ∀ g ∈ given, Settings.has [] g.option = false := fun _ _ => rfl
  have hstart := foldlM_given hoptions hnodup hnew
  rw [List.append_nil] at hstart
  simp only [readOptions, Reading.start, hstart]
  rfl

/-! ### A check -/

theorem read_difficulty (d : UInt64) :
    Opt.difficulty.read (toString d.toNat).toList = .ok (.number d) := by
  have hdigits : (toString d.toNat).toList = Nat.toDigits 10 d.toNat := Nat.toList_repr
  have hread : Numeral.read .decimal (List.replicate 0 '0' ++ Nat.toDigits 10 d.toNat) = .ok d :=
    (Numeral.read_toDigits_eq_ok_iff (b := .decimal)).mpr rfl
  rw [List.replicate_zero, List.nil_append, ← hdigits] at hread
  rw [Opt.read, hread]
  rfl

/-- The options of a check. -/
def checkGiven (header nonce mix : String) (goal : Goal) : List Given :=
  [⟨.header, header, .text header, rfl, by simp [Opt.read]⟩,
    ⟨.nonce, nonce, .text nonce, rfl, by simp [Opt.read]⟩,
    ⟨.mix, mix, .text mix, rfl, by simp [Opt.read]⟩] ++
  goal.boundary.toList.map (fun b => ⟨.boundary, b, .text b, rfl, by simp [Opt.read]⟩) ++
  goal.difficulty.toList.map fun d => ⟨.difficulty, toString d.toNat, .number d, rfl, read_difficulty d⟩

/-- A command line that asks for a check. -/
def checkLine (header nonce mix : String) (goal : Goal) (json : Bool) : List String :=
  (if json then ["--json"] else []) ++
    "check" :: (checkGiven header nonce mix goal).map Given.argument

/-- Every text is taken for the header, the nonce, the mix digest and the boundary, and every number
of 64 bits for the difficulty. -/
theorem parse_checkLine (header nonce mix : String) {goal : Goal} (json : Bool)
    (hgoal : goal.boundary = none ∨ goal.difficulty = none) :
    Args.parse (checkLine header nonce mix goal json) =
      .ok ⟨.check header nonce mix goal, false, false, json⟩ := by
  have hread : readOptions .check ((checkGiven header nonce mix goal).map Given.argument) =
      .ok ((checkGiven header nonce mix goal).map Given.setting).reverse := by
    refine readOptions_given ?_ ?_
    · rcases goal with ⟨_ | b, _ | d⟩ <;> simp [checkGiven, CommandName.options]
    · rcases goal with ⟨_ | b, _ | d⟩ <;> simp [checkGiven]
  have hofOptions (before : Settings) (h : before = [] ∨ before = [(.json, .on)]) :
      Args.ofOptions before .check ((checkGiven header nonce mix goal).map Given.argument) =
        .ok ⟨.check header nonce mix goal, false, false, before.has .json⟩ := by
    rw [Args.ofOptions, hread]
    rcases goal with ⟨_ | b, _ | d⟩
    · rcases h with rfl | rfl <;> rfl
    · rcases h with rfl | rfl <;> rfl
    · rcases h with rfl | rfl <;> rfl
    · simp at hgoal
  cases json with
  | false => exact hofOptions [] (.inl rfl)
  | true => exact hofOptions [(.json, .on)] (.inr rfl)

end ProofOfWork.Cli
