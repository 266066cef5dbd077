import ProofOfWork.Cli.Run
import ProofOfWork.Cli.Transcript
import ProofOfWork.Proofs.Cli.Parse
import ProofOfWork.Proofs.Cli.Value
import ProofOfWork.Proofs.Target

/-! The command that holds a claimed mix digest against a boundary. It prints its whole answer, as
text or as JSON, or no part of it. -/

namespace ProofOfWork.Cli

open Target (bigEndian)

variable {H : Hasher} {header nonce mix : String} {goal : Goal}

/-! ### The answer -/

/-- Whether the four values of a check can be read. -/
def Readable (header nonce mix : String) (goal : Goal) : Prop :=
  (∃ h, readHash header = .ok h) ∧ (∃ n, readNonce nonce = .ok n) ∧ (∃ m, readHash mix = .ok m) ∧
    ∃ boundary, goal.target? = .ok boundary

/-- The verdict on a hash by a boundary, if there is one. -/
def judge (result : Hash256) (boundary : Option Hash256) : Option Bool :=
  boundary.map fun b => decide (bigEndian result.toList ≤ bigEndian b.toList)

theorem map_meets (result : Hash256) (boundary : Option Hash256) :
    boundary.map (Target.meets result) = judge result boundary := by
  have hmeets : Target.meets result = fun b =>
      decide (bigEndian result.toList ≤ bigEndian b.toList) := by
    funext b
    rw [Bool.eq_iff_iff, Target.meets_iff, decide_eq_true_iff]
  rw [judge, hmeets]

theorem checkReport_eq_ok {h m : Hash256} {n : UInt64} {boundary : Option Hash256}
    (hheader : readHash header = .ok h) (hnonce : readNonce nonce = .ok n)
    (hmix : readHash mix = .ok m) (htarget : goal.target? = .ok boundary) :
    checkReport H header nonce mix goal =
      .ok (.check (Target.quickHash H h n m) (judge (Target.quickHash H h n m) boundary)) := by
  simp only [checkReport, hheader, hnonce, hmix, Goal.verdict, htarget, ← map_meets]
  rfl

theorem readable_of_checkReport {report : Report}
    (h : checkReport H header nonce mix goal = .ok report) : Readable header nonce mix goal := by
  unfold checkReport at h
  cases hheader : readHash header with
  | error e => rw [hheader] at h; contradiction
  | ok header =>
    cases hnonce : readNonce nonce with
    | error e => rw [hheader, hnonce] at h; contradiction
    | ok nonce =>
      cases hmix : readHash mix with
      | error e => rw [hheader, hnonce, hmix] at h; contradiction
      | ok mix =>
        cases htarget : goal.target? with
        | error e =>
          simp [bind, Except.bind, hheader, hnonce, hmix, Goal.verdict, htarget, Except.map] at h
        | ok boundary => exact ⟨⟨_, hheader⟩, ⟨_, hnonce⟩, ⟨_, hmix⟩, _, htarget⟩

/-! ### The run -/

/-- How the program ends when it is given these arguments: the exit code, and what was printed. -/
def outcome (H : Hasher) (colours : Bool) (defaultDir : Option Path) (arguments : List String)
    (t : Transcript) : UInt32 × Transcript :=
  ((start arguments H colours defaultDir).run (I := Terminal) Transcript.serve).run t

variable {colours : Bool} {defaultDir : Option Path} {arguments : List String} {args : Args}
  {t : Transcript}

theorem outcome_check (hparse : Args.parse arguments = .ok args)
    (hcommand : args.command = .check header nonce mix goal) :
    outcome H colours defaultDir arguments t =
      let colour := colours && !args.noColor
      let out := if args.json then t.out else t.out ++ banner colour
      match checkReport H header nonce mix goal with
      | .ok report => (0, { t with out := out ++ report.render args.json colour })
      | .error e =>
        (1, { t with
          out, err := t.err ++ (Role.failure.paint colour "Error:" ++ " " ++ e.message ++ "\n") }) := by
  have hperform (c : Context) :
      (c.perform args.command).run =
        .done ((checkReport c.hasher header nonce mix goal).mapError Failure.badValue) := by
    rw [hcommand]
    rfl
  rw [outcome, start, hparse]
  dsimp only
  rw [Args.run, hperform]
  cases checkReport H header nonce mix goal <;> cases args.json <;> rfl

/-- The line of the text mode for a verdict. -/
def boundaryLine (colour : Bool) : Option Bool → String
  | none => ""
  | some true => Role.label.paint colour "Boundary:      " ++ " " ++ Role.met.paint colour "met" ++ "\n"
  | some false =>
    Role.label.paint colour "Boundary:      " ++ " " ++ Role.notMet.paint colour "not met" ++ "\n"

/-- What the text mode prints for a result and a verdict on it. -/
def checkText (colour : Bool) (result : Hash256) (meets : Option Bool) : String :=
  Role.label.paint colour "Result:        " ++ " " ++ Role.hash.paint colour result.toHex ++ "\n" ++
    boundaryLine colour meets

/-- The value of the JSON mode for a verdict. -/
def boundaryValue : Option Bool → String
  | none => "null"
  | some true => "true"
  | some false => "false"

/-- What the JSON mode prints for a result and a verdict on it. -/
def checkJson (result : Hash256) (meets : Option Bool) : String :=
  "\x7b\n  \"result\": \"" ++ result.toHex ++ "\",\n  \"meets_boundary\": " ++ boundaryValue meets ++
    "\n\x7d\n"

theorem text_check (colour : Bool) (result : Hash256) (meets : Option Bool) :
    (Report.check result meets).text colour = checkText colour result meets := by
  have hresult : padRight 15 "Result:" = "Result:        " := by decide
  have hboundary : padRight 15 "Boundary:" = "Boundary:      " := by decide
  have hr : "Result" ++ ":" = "Result:" := by decide
  have hb : "Boundary" ++ ":" = "Boundary:" := by decide
  rcases meets with _ | _ | _ <;>
    simp [Report.text, checkText, boundaryLine, Report.hashRow, Report.verdictRow, Row.render, hr, hb,
      hresult, hboundary, String.append_assoc]

theorem flatMap_escaped {text : List Char} (h : ∀ c ∈ text, ∃ v < 16, c = v.digitChar) :
    text.flatMap Json.escaped = text := by
  have hplain : ∀ v < 16, Json.escaped v.digitChar = [v.digitChar] := by decide
  induction text with
  | nil => rfl
  | cons c text ih =>
    obtain ⟨⟨v, hv, rfl⟩, htext⟩ := List.forall_mem_cons.mp h
    rw [List.flatMap_cons, hplain v hv, ih htext, List.singleton_append]

theorem quoted_toHex (hash : Hash256) : Json.quoted hash.toHex = "\"" ++ hash.toHex ++ "\"" := by
  have hdigits : ∀ c ∈ hash.toHex.toList, ∃ v < 16, c = v.digitChar := by
    rw [hash.toList_toHex]
    exact fun c => Hex.exists_of_mem_digits
  have hquote : "\"".toList = ['"'] := rfl
  rw [← String.toList_inj, Json.quoted, flatMap_escaped hdigits]
  simp [hquote]

theorem object_two (n₁ n₂ : String) (v₁ v₂ : Json.Value) :
    Json.object [(n₁, v₁), (n₂, v₂)] =
      "\x7b\n" ++ ("  " ++ Json.quoted n₁ ++ ": " ++ v₁.render ++ ",\n" ++
        ("  " ++ Json.quoted n₂ ++ ": " ++ v₂.render)) ++ "\n\x7d" := rfl

theorem json_check (result : Hash256) (meets : Option Bool) :
    Json.object (Report.check result meets).fields ++ "\n" = checkJson result meets := by
  have hresult : Json.quoted "result" = "\"result\"" := by decide
  have hmeets : Json.quoted "meets_boundary" = "\"meets_boundary\"" := by decide
  have hvalue : (meets.elim Json.Value.null .bool).render = boundaryValue meets := by
    rcases meets with _ | _ | _ <;> rfl
  have hopen : "\x7b\n" ++ "  " ++ "\"result\"" ++ ": " ++ "\"" =
      "\x7b\n  \"result\": \"" := by decide
  have hmiddle : "\"" ++ ",\n" ++ "  " ++ "\"meets_boundary\"" ++ ": " =
      "\",\n  \"meets_boundary\": " := by decide
  have hclose : "\n\x7d" ++ "\n" = "\n\x7d\n" := by decide
  rw [Report.fields, object_two, hresult, hmeets, hvalue, Json.Value.render, quoted_toHex]
  delta checkJson
  rw [← hopen, ← hmiddle, ← hclose]
  simp only [String.append_assoc]

theorem boundaryLine_injective {colour : Bool} {meets meets' : Option Bool} :
    boundaryLine colour meets = boundaryLine colour meets' ↔ meets = meets' := by
  cases colour <;> rcases meets with _ | _ | _ <;> rcases meets' with _ | _ | _ <;> decide

theorem boundaryValue_injective {meets meets' : Option Bool} :
    boundaryValue meets = boundaryValue meets' ↔ meets = meets' := by
  rcases meets with _ | _ | _ <;> rcases meets' with _ | _ | _ <;> decide

theorem checkText_inj {colour : Bool} {result : Hash256} {meets meets' : Option Bool} :
    checkText colour result meets = checkText colour result meets' ↔ meets = meets' := by
  rw [checkText, checkText, String.append_right_inj, boundaryLine_injective]

theorem checkJson_inj {result : Hash256} {meets meets' : Option Bool} :
    checkJson result meets = checkJson result meets' ↔ meets = meets' := by
  delta checkJson
  rw [String.append_left_inj, String.append_right_inj, boundaryValue_injective]

/-- A check ends with 0 exactly if its four values are read, in either mode, and it prints nothing of its
answer otherwise. Both modes print the same hash and the same verdict on it, whether its number is at
most that of the boundary, if there is one. -/
theorem check_exact {plain json : List String} {args : Args} {header nonce mix : String} {goal : Goal}
    (hplain : Args.parse plain = .ok { args with json := false })
    (hjson : Args.parse json = .ok { args with json := true })
    (hcommand : args.command = .check header nonce mix goal)
    (H : Hasher) (colours : Bool) (defaultDir : Option Path) (t : Transcript) :
    let colour := colours && !args.noColor
    let inText := outcome H colours defaultDir plain t
    let inJson := outcome H colours defaultDir json t
    inText.1 = inJson.1 ∧
    (inText.1 = 0 ↔ (∃ h, readHash header = .ok h) ∧ (∃ n, readNonce nonce = .ok n) ∧
      (∃ m, readHash mix = .ok m) ∧ ∃ boundary, goal.target? = .ok boundary) ∧
    (inText.1 ≠ 0 → inText.2.out = t.out ++ banner colour ∧ inJson.2.out = t.out) ∧
    ∀ h n m boundary, readHash header = .ok h → readNonce nonce = .ok n → readHash mix = .ok m →
      goal.target? = .ok boundary →
      let result := Target.quickHash H h n m
      let meets := boundary.map fun b => decide (bigEndian result.toList ≤ bigEndian b.toList)
      ∀ meets',
        (inText.2.out = t.out ++ banner colour ++ checkText colour result meets' ↔ meets' = meets) ∧
        (inJson.2.out = t.out ++ checkJson result meets' ↔ meets' = meets) := by
  intro colour inText inJson
  have hinText : inText = _ := outcome_check hplain hcommand
  have hinJson : inJson = _ := outcome_check hjson hcommand
  cases hreport : checkReport H header nonce mix goal with
  | error e =>
    have hunreadable : ¬Readable header nonce mix goal := by
      rintro ⟨⟨h, hheader⟩, ⟨n, hnonce⟩, ⟨m, hmix⟩, boundary, htarget⟩
      rw [checkReport_eq_ok hheader hnonce hmix htarget] at hreport
      contradiction
    rw [hreport] at hinText hinJson
    refine ⟨by rw [hinText, hinJson], iff_of_false (by simp [hinText]) hunreadable,
      fun _ => ⟨by rw [hinText]; rfl, by rw [hinJson]; rfl⟩, ?_⟩
    intro h n m boundary hheader hnonce hmix htarget
    exact (hunreadable ⟨⟨h, hheader⟩, ⟨n, hnonce⟩, ⟨m, hmix⟩, boundary, htarget⟩).elim
  | ok report =>
    rw [hreport] at hinText hinJson
    have hzero : inText.1 = 0 := by rw [hinText]
    refine ⟨by rw [hinText, hinJson], iff_of_true hzero (readable_of_checkReport hreport),
      fun hne => (hne hzero).elim, ?_⟩
    intro h n m boundary hheader hnonce hmix htarget result meets meets'
    obtain rfl := Except.ok.inj (hreport.symm.trans (checkReport_eq_ok hheader hnonce hmix htarget))
    have houtText : inText.2.out = t.out ++ banner colour ++ checkText colour result meets := by
      rw [hinText]
      exact congrArg (t.out ++ banner colour ++ ·) (text_check colour result meets)
    have houtJson : inJson.2.out = t.out ++ checkJson result meets := by
      rw [hinJson]
      exact congrArg (t.out ++ ·) (json_check result meets)
    rw [houtText, houtJson, String.append_right_inj, String.append_right_inj, checkText_inj,
      checkJson_inj]
    exact ⟨eq_comm, eq_comm⟩

theorem check_exact_seven :
    let zeros := (ByteVector.zero : Hash256).toHex
    let line := checkLine zeros "7" zeros ⟨none, some 1⟩
    let inText := outcome .keccak false none (line false)
    let inJson := outcome .keccak false none (line true)
    ∃ result, ∀ t, (inText t).1 = 0 ∧ (inJson t).1 = 0 ∧
      (inText t).2.out = t.out ++ banner false ++ checkText false result (some true) ∧
      (inJson t).2.out = t.out ++ checkJson result (some true) := by
  intro zeros line inText inJson
  have hzeros : readHash zeros = .ok .zero := readHash_marked_eq_ok_iff.mpr
    ⟨0, _, ByteVector.toList_toHex _, Hex.map_toLower_digits _⟩
  have hseven : readNonce "7" = .ok 7 := by decide
  have hmeets (result : Hash256) : some true = (some (Target.ofDifficulty 1)).map fun b =>
      decide (bigEndian result.toList ≤ bigEndian b.toList) := by
    have hlt := Target.bigEndian_lt result.toList
    rw [ByteVector.length_toList] at hlt
    have hle : bigEndian result.toList ≤ bigEndian (Target.ofDifficulty 1).toList := by
      rw [Target.bigEndian_ofDifficulty_of_le (by decide)]
      omega
    rw [Option.map_some, decide_eq_true hle]
  refine ⟨Target.quickHash .keccak .zero 7 .zero, fun t => ?_⟩
  obtain ⟨hcode, hzero, -, hout⟩ :=
    @check_exact _ _ ⟨.check zeros "7" zeros ⟨none, some 1⟩, false, false, false⟩ _ _ _ _
      (parse_checkLine zeros "7" zeros false (.inl rfl))
      (parse_checkLine zeros "7" zeros true (.inl rfl)) rfl .keccak false none t
  have hok : (inText t).1 = 0 := hzero.mpr ⟨⟨_, hzeros⟩, ⟨_, hseven⟩, ⟨_, hzeros⟩, _, rfl⟩
  obtain ⟨htext, hjson⟩ := hout _ _ _ _ hzeros hseven hzeros rfl (some true)
  exact ⟨hok, hcode ▸ hok, htext.mpr (hmeets _), hjson.mpr (hmeets _)⟩

end ProofOfWork.Cli
