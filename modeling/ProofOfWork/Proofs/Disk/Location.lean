import ProofOfWork.Disk.Calls

/-! Where paths lead. What stands on a disk decides whether a path leads anywhere, but not where. -/

namespace ProofOfWork

/-- The place to which names lead from `place`, without a look at a disk. -/
def Location.through (place : Location) : List String → Location
  | [] => place
  | name :: rest =>
    if name = "." then through place rest
    else if name = ".." then through place.dropLast rest
    else through (place ++ [name]) rest

/-- The place to which a path leads, if it leads anywhere. -/
def Path.location (p : Path) : Location := Location.through [] p.names

theorem Location.through_append (place : Location) (names rest : List String) :
    through place (names ++ rest) = through (through place names) rest := by
  induction names generalizing place with
  | nil => rfl
  | cons name names ih =>
    rw [List.cons_append, through, through]
    split
    · exact ih _
    · split <;> exact ih _

namespace Path

theorem exists_splitSlash (text : List Char) : ∃ part parts, splitSlash text = part :: parts := by
  cases text with
  | nil => exact ⟨[], [], rfl⟩
  | cons c rest =>
    rw [splitSlash]
    split
    · exact ⟨_, _, rfl⟩
    · split
      · exact ⟨_, _, rfl⟩
      · exact ⟨_, _, rfl⟩

theorem splitSlash_slash (rest : List Char) : splitSlash ('/' :: rest) = [] :: splitSlash rest := by
  obtain ⟨part, parts, h⟩ := exists_splitSlash rest
  rw [splitSlash, h]
  rfl

theorem splitSlash_cons {c : Char} {rest part : List Char} {parts : List (List Char)} (hc : c ≠ '/')
    (h : splitSlash rest = part :: parts) : splitSlash (c :: rest) = (c :: part) :: parts := by
  rw [splitSlash, h]
  exact if_neg hc

theorem splitSlash_append_slash (text rest : List Char) :
    splitSlash (text ++ '/' :: rest) = splitSlash text ++ splitSlash rest := by
  induction text with
  | nil => exact splitSlash_slash rest
  | cons c text ih =>
    rw [List.cons_append]
    by_cases hc : c = '/'
    · rw [hc, splitSlash_slash, splitSlash_slash, ih, List.cons_append]
    · obtain ⟨part, parts, h⟩ := exists_splitSlash text
      rw [h, List.cons_append] at ih
      rw [splitSlash_cons hc ih, splitSlash_cons hc h, List.cons_append]

theorem splitSlash_of_not_mem {text : List Char} (h : '/' ∉ text) : splitSlash text = [text] := by
  induction text with
  | nil => rfl
  | cons c text ih =>
    rw [List.mem_cons, not_or] at h
    exact splitSlash_cons (Ne.symm h.1) (ih h.2)

theorem names_eq_append {p q r : Path} (h : p.text.toList = q.text.toList ++ '/' :: r.text.toList) :
    p.names = q.names ++ r.names := by
  rw [names, names, names, h, splitSlash_append_slash, List.filter_append, List.map_append]

theorem names_of_not_mem {name : String} (h : '/' ∉ name.toList) (hne : name ≠ "") :
    (⟨name⟩ : Path).names = [name] := by
  have hlist : name.toList ≠ [] := fun hnil => hne (String.toList_inj.mp hnil)
  rw [names, splitSlash_of_not_mem h, List.filter_cons_of_pos, List.filter_nil, List.map_cons,
    List.map_nil, String.ofList_toList]
  rw [List.isEmpty_eq_false_iff.mpr hlist]
  rfl

/-- A name that is joined to a directory is the last name of the path. -/
theorem names_join (dir : Path) {name : String} (h : '/' ∉ name.toList) (hne : name ≠ "") :
    (dir.join name).names = dir.names ++ [name] := by
  have hhead : name.toList.head? ≠ some '/' := fun hsome => h (List.mem_of_head? hsome)
  rw [join, if_neg hhead]
  split
  case isTrue hdir =>
    rw [← names_of_not_mem h hne]
    rcases hdir with hempty | hslash
    · have hnames : dir.names = [] := by
        rw [names, hempty]
        rfl
      rw [hempty, String.empty_append, hnames, List.nil_append]
    · obtain ⟨init, hinit⟩ := List.getLast?_eq_some_iff.mp (beq_iff_eq.mp hslash)
      have hdir : dir.names = (⟨String.ofList init⟩ : Path).names :=
        (names_eq_append (r := ⟨""⟩) (by rw [hinit, String.toList_ofList]; rfl)).trans
          (List.append_nil _)
      rw [hdir]
      refine names_eq_append ?_
      rw [String.toList_append, hinit, String.toList_ofList, List.append_assoc]
      rfl
  case isFalse =>
    rw [← names_of_not_mem h hne]
    refine names_eq_append ?_
    rw [String.toList_append, String.toList_append, List.append_assoc]
    rfl

theorem location_join (dir : Path) {name : String} (h : '/' ∉ name.toList) (hne : name ≠ "")
    (hdot : name ≠ ".") (hdots : name ≠ "..") :
    (dir.join name).location = dir.location ++ [name] := by
  rw [location, names_join dir h hne, Location.through_append, Location.through, if_neg hdot,
    if_neg hdots]
  rfl

end Path

namespace Disk

variable {d : Disk} {p : Path} {place : Location}

theorem walk_eq_ok {start : Location} {names : List String} (h : d.walk start names = .ok place) :
    Location.through start names = place := by
  induction names generalizing start with
  | nil =>
    rw [walk, Except.ok.injEq] at h
    exact h
  | cons name names ih =>
    rw [walk] at h
    rw [Location.through]
    split at h
    · contradiction
    · contradiction
    · split at h
      case isTrue hname =>
        rw [if_pos hname]
        exact ih h
      case isFalse hname =>
        rw [if_neg hname]
        split at h
        case isTrue hname =>
          rw [if_pos hname]
          exact ih h
        case isFalse hname =>
          rw [if_neg hname]
          split at h
          · contradiction
          · exact ih h

theorem resolve_eq_ok (h : d.resolve p = .ok place) : p.location = place := by
  unfold resolve follow at h
  split at h
  · contradiction
  · have hwalk : d.walk [] (if p.endsWithSlash then p.names ++ ["."] else p.names) = .ok place := by
      revert h
      cases d.walk [] (if p.endsWithSlash then p.names ++ ["."] else p.names) with
      | error e => exact fun h => by contradiction
      | ok found => exact fun h => congrArg Except.ok (Except.ok.inj h)
    rw [← walk_eq_ok hwalk, Path.location]
    split
    · rw [Location.through_append]
      rfl
    · rfl

end Disk

end ProofOfWork
