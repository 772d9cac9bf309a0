import Mathlib.Data.List.Induction
import Mathlib.Tactic.Common
import MaterialGraph.CommandLine.Arguments

/-!
# Arguments in groups

Arguments that are accepted fall into groups, each of which is a flag with the value that it takes.
What they ask for can be said of the groups as a whole, without going through them: the last group
of each sort counts (`Group.asked`).  Reading goes through the arguments one by one, so it is
matched with what a group adds to what has been asked for before (`Arguments.put`).

Every list of arguments is groups followed by a rest that is empty or starts with an argument that
no group starts with (`Group.exists_split`, `Group.Refused`).  No group is the beginning of another
one (`Group.words_append_inj`), so the groups are those of every other split as far as that one goes
(`Group.isPrefix_of_words`), and reading gets to the end of them and no further.

Main statements: `Arguments.parse_eq_ok_iff`, `Arguments.parse_accepts_groups`.
-/

namespace MaterialGraph.CommandLine

/-- A flag as it is given, with its value if it takes one. -/
inductive Group where
  | material (path : String)
  | options (path : String)
  | shader
  | wgsl
  | validate
  deriving DecidableEq

namespace Group

/-- The arguments of a group. -/
def words : Group → List String
  | material path => [Flag.material.name, path]
  | options path => [Flag.options.name, path]
  | shader => [Flag.shader.name]
  | wgsl => [Flag.wgsl.name]
  | validate => [Flag.validate.name]

/-- The file of a material, if the group gives one. -/
def material? : Group → Option String
  | material path => some path
  | _ => none

/-- The file of options, if the group gives one. -/
def options? : Group → Option String
  | options path => some path
  | _ => none

/-- What is to be printed, if the group says so. -/
def emit? : Group → Option Emit
  | shader => some .shader
  | wgsl => some .wgsl
  | _ => none

/-- What groups ask for: of each sort the last one counts, and without any the body is printed. -/
def asked (groups : List Group) : Arguments where
  material := (groups.filterMap material?).getLast?
  options := (groups.filterMap options?).getLast?
  emit := (groups.filterMap emit?).getLast?.getD .body
  validate := groups.contains validate

/-- No group starts with the argument when the others come after it, and the error says why: the
argument is a flag that lacks its value, or no flag at all. -/
inductive Refused (arg : String) : List String → ArgumentError → Prop where
  | missingValue {flag : Flag} (hvalue : flag = .material ∨ flag = .options)
      (harg : arg = flag.name) : Refused arg [] (.missingValue flag)
  | unknown {rest : List String} (harg : ∀ flag : Flag, arg ≠ flag.name) :
      Refused arg rest (.unknown arg)

/-- The message of an error quotes the argument that is refused. -/
lemma Refused.message_eq {arg : String} {rest : List String} {e : ArgumentError}
    (h : Refused arg rest e) :
    rest = [] ∧ (arg = Flag.material.name ∨ arg = Flag.options.name) ∧
        e.message = "missing value for " ++ arg ∨
      (∀ flag : Flag, arg ≠ flag.name) ∧
        e.message = "unknown argument: " ++ arg ++ " (supported: "
          ++ "--material <doc.json>, --options <options.json>, --shader, --wgsl, --validate"
          ++ ")" := by
  cases h with
  | missingValue hvalue harg =>
    subst harg
    exact Or.inl ⟨rfl, hvalue.imp (congrArg Flag.name) (congrArg Flag.name), rfl⟩
  | unknown harg =>
    refine Or.inr ⟨harg, ?_⟩
    have husage : Text.separated ", " (Flag.all.map Flag.usage) =
        "--material <doc.json>, --options <options.json>, --shader, --wgsl, --validate" := by
      decide
    rw [← husage]
    rfl

/-! ### Splitting arguments into groups -/

/-- A group starts with a flag. -/
lemma exists_words_eq_cons (group : Group) :
    ∃ (flag : Flag) (values : List String), group.words = flag.name :: values := by
  cases group <;> exact ⟨_, _, rfl⟩

/-- No group is the beginning of another one. -/
lemma words_append_inj {group group' : Group} {rest rest' : List String}
    (h : group.words ++ rest = group'.words ++ rest') : group = group' ∧ rest = rest' := by
  cases group <;> cases group' <;> simp_all [words, Flag.name]

/-- No group starts with an argument that is refused. -/
lemma Refused.words_append_ne {arg : String} {rest : List String} {e : ArgumentError}
    (h : Refused arg rest e) (group : Group) (after : List String) :
    group.words ++ after ≠ arg :: rest := by
  intro hwords
  cases h with
  | missingValue hvalue harg =>
    rcases hvalue with rfl | rfl <;> cases group <;> simp_all [words, Flag.name]
  | unknown harg =>
    obtain ⟨flag, values, hgroup⟩ := group.exists_words_eq_cons
    rw [hgroup, List.cons_append] at hwords
    exact harg flag (List.cons.inj hwords).1.symm

/-- Arguments start with a group unless the first of them is refused. -/
lemma exists_words_or_refused (arg : String) (rest : List String) :
    (∃ (group : Group) (after : List String), group.words ++ after = arg :: rest) ∨
      ∃ e, Refused arg rest e := by
  by_cases hflag : ∃ flag : Flag, arg = flag.name
  · obtain ⟨flag, rfl⟩ := hflag
    cases flag with
    | material =>
      cases rest with
      | nil => exact Or.inr ⟨_, .missingValue (Or.inl rfl) rfl⟩
      | cons path rest => exact Or.inl ⟨.material path, rest, rfl⟩
    | options =>
      cases rest with
      | nil => exact Or.inr ⟨_, .missingValue (Or.inr rfl) rfl⟩
      | cons path rest => exact Or.inl ⟨.options path, rest, rfl⟩
    | shader => exact Or.inl ⟨.shader, rest, rfl⟩
    | wgsl => exact Or.inl ⟨.wgsl, rest, rfl⟩
    | validate => exact Or.inl ⟨.validate, rest, rfl⟩
  · exact Or.inr ⟨_, .unknown (not_exists.mp hflag)⟩

/-- Arguments are groups, after which there is nothing or an argument that is refused. -/
lemma exists_split (args : List String) :
    (∃ groups : List Group, groups.flatMap words = args) ∨
      ∃ (groups : List Group) (arg : String) (rest : List String) (e : ArgumentError),
        groups.flatMap words ++ arg :: rest = args ∧ Refused arg rest e := by
  induction hlength : args.length using Nat.strongRecOn generalizing args with
  | _ length ih =>
    cases args with
    | nil => exact Or.inl ⟨[], rfl⟩
    | cons arg rest =>
      rcases exists_words_or_refused arg rest with ⟨group, after, hafter⟩ | ⟨e, he⟩
      · have hshorter : after.length < length := by
          obtain ⟨flag, values, hgroup⟩ := group.exists_words_eq_cons
          rw [← hlength, ← hafter, hgroup, List.length_append, List.length_cons]
          omega
        rcases ih _ hshorter after rfl with ⟨groups, hgroups⟩ | ⟨groups, arg, rest, e, hgroups, he⟩
        · exact Or.inl ⟨group :: groups, by rw [List.flatMap_cons, hgroups, hafter]⟩
        · refine Or.inr ⟨group :: groups, arg, rest, e, ?_, he⟩
          rw [List.flatMap_cons, List.append_assoc, hgroups, hafter]
      · exact Or.inr ⟨[], arg, rest, e, rfl, he⟩

/-- Groups that arguments begin with are among the groups of a split, if no group starts with what
the split leaves over. -/
lemma isPrefix_of_words {groups groups' : List Group} {rest : List String}
    (hrest : ∀ (group : Group) (after : List String), group.words ++ after ≠ rest)
    (h : groups'.flatMap words <+: groups.flatMap words ++ rest) : groups' <+: groups := by
  induction groups' generalizing groups with
  | nil => exact List.nil_prefix
  | cons group' groups' ih =>
    obtain ⟨after, hafter⟩ := h
    rw [List.flatMap_cons, List.append_assoc] at hafter
    cases groups with
    | nil => exact absurd hafter (hrest _ _)
    | cons group groups =>
      rw [List.flatMap_cons, List.append_assoc] at hafter
      obtain ⟨rfl, hlater⟩ := words_append_inj hafter
      exact (List.prefix_cons_inj _).mpr (ih ⟨after, hlater⟩)

/-- Arguments fall into groups in at most one way. -/
lemma flatMap_words_injective {groups groups' : List Group}
    (h : groups.flatMap words = groups'.flatMap words) : groups = groups' := by
  have hrest : ∀ (group : Group) (after : List String), group.words ++ after ≠ [] := by
    intro group after
    obtain ⟨flag, values, hgroup⟩ := group.exists_words_eq_cons
    simp [hgroup]
  have hbefore : groups <+: groups' := isPrefix_of_words hrest ⟨[], by rw [h]⟩
  have hafter : groups' <+: groups := isPrefix_of_words hrest ⟨[], by rw [h]⟩
  exact hbefore.eq_of_length_le hafter.length_le

end Group

namespace Arguments

/-- What is asked for after one more group. -/
def put (a : Arguments) : Group → Arguments
  | .material path => { a with material := some path }
  | .options path => { a with options := some path }
  | .shader => { a with emit := .shader }
  | .wgsl => { a with emit := .wgsl }
  | .validate => { a with validate := true }

/-- Reading a group puts it to what has been asked for. -/
lemma read_words_append (a : Arguments) (group : Group) (rest : List String) :
    a.read (group.words ++ rest) = (a.put group).read rest := by
  cases group <;> rfl

/-- Reading groups puts them one after the other. -/
lemma read_flatMap_words_append (a : Arguments) (groups : List Group) (rest : List String) :
    a.read (groups.flatMap Group.words ++ rest) = (groups.foldl put a).read rest := by
  induction groups generalizing a with
  | nil => rfl
  | cons group groups ih =>
    rw [List.flatMap_cons, List.append_assoc, read_words_append, ih, List.foldl_cons]

/-- Reading ends at an argument that is refused. -/
lemma read_refused (a : Arguments) {arg : String} {rest : List String} {e : ArgumentError}
    (h : Group.Refused arg rest e) : a.read (arg :: rest) = .error e := by
  cases h with
  | missingValue hvalue harg =>
    subst harg
    rcases hvalue with rfl | rfl <;> rfl
  | unknown harg =>
    have hnone : Flag.ofName? arg = none := by
      refine List.find?_eq_none.mpr fun flag _ hname => harg flag ?_
      exact (beq_iff_eq.mp hname).symm
    unfold read
    rw [hnone]

/-- What has been put one group after the other is what the groups ask for as a whole. -/
lemma foldl_put_eq_asked (groups : List Group) : groups.foldl put {} = Group.asked groups := by
  induction groups using List.reverseRecOn with
  | nil => rfl
  | append_singleton groups group ih =>
    rw [List.foldl_append, ih]
    cases group <;> simp [put, Group.asked, Group.material?, Group.options?, Group.emit?]

/-- Groups are accepted and ask for what they ask for as a whole. -/
lemma parse_flatMap_words (groups : List Group) :
    parse (groups.flatMap Group.words) = .ok (Group.asked groups) := by
  have hread := read_flatMap_words_append {} groups []
  rw [List.append_nil, foldl_put_eq_asked] at hread
  exact hread

/-- Arguments are refused for the first one that no group starts with. -/
lemma parse_flatMap_words_append (groups : List Group) {arg : String} {rest : List String}
    {e : ArgumentError} (h : Group.Refused arg rest e) :
    parse (groups.flatMap Group.words ++ arg :: rest) = .error e := by
  unfold parse
  rw [read_flatMap_words_append, read_refused _ h]

/-- Arguments are accepted just if they fall into groups, and then ask for what the groups ask
for. -/
theorem parse_eq_ok_iff {args : List String} {a : Arguments} :
    parse args = .ok a ↔ ∃ groups : List Group, groups.flatMap Group.words = args ∧
      Group.asked groups = a := by
  constructor
  · intro h
    rcases Group.exists_split args with ⟨groups, rfl⟩ | ⟨groups, arg, rest, e, rfl, he⟩
    · rw [parse_flatMap_words] at h
      exact ⟨groups, rfl, Except.ok.inj h⟩
    · rw [parse_flatMap_words_append groups he] at h
      cases h
  · rintro ⟨groups, rfl, rfl⟩
    exact parse_flatMap_words groups

/-- Arguments are refused just if one of them is refused after groups. -/
theorem parse_eq_error_iff {args : List String} {e : ArgumentError} :
    parse args = .error e ↔ ∃ (groups : List Group) (arg : String) (rest : List String),
      groups.flatMap Group.words ++ arg :: rest = args ∧ Group.Refused arg rest e := by
  constructor
  · intro h
    rcases Group.exists_split args with ⟨groups, rfl⟩ | ⟨groups, arg, rest, e', rfl, he⟩
    · rw [parse_flatMap_words] at h
      cases h
    · rw [parse_flatMap_words_append groups he] at h
      exact ⟨groups, arg, rest, rfl, Except.error.inj h ▸ he⟩
  · rintro ⟨groups, arg, rest, rfl, he⟩
    exact parse_flatMap_words_append groups he

/-- Arguments are accepted just if they fall into groups, which they do in one way only, and then
they ask for what the last group of each sort says.  All others are refused for the argument right
after the longest beginning that falls into groups.  That argument is the last one and a flag whose
value is missing, or it is no flag; the message quotes it. -/
theorem parse_accepts_groups (args : List String) :
    (∀ a, parse args = .ok a ↔
        ∃ groups : List Group, groups.flatMap Group.words = args ∧ Group.asked groups = a) ∧
      (∀ groups groups' : List Group, groups.flatMap Group.words = args →
        groups'.flatMap Group.words = args → groups = groups') ∧
      ∀ e, parse args = .error e ↔
        ∃ (groups : List Group) (arg : String) (rest : List String),
          groups.flatMap Group.words ++ arg :: rest = args ∧
          (∀ groups' : List Group, groups'.flatMap Group.words <+: args →
            groups'.flatMap Group.words <+: groups.flatMap Group.words) ∧
          Group.Refused arg rest e ∧
          (rest = [] ∧ (arg = Flag.material.name ∨ arg = Flag.options.name) ∧
              e.message = "missing value for " ++ arg ∨
            (∀ flag : Flag, arg ≠ flag.name) ∧
              e.message = "unknown argument: " ++ arg ++ " (supported: "
                ++ "--material <doc.json>, --options <options.json>, --shader, --wgsl, --validate"
                ++ ")") := by
  refine ⟨fun a => parse_eq_ok_iff, fun groups groups' h h' => ?_, fun e => ?_⟩
  · exact Group.flatMap_words_injective (h.trans h'.symm)
  · rw [parse_eq_error_iff]
    constructor
    · rintro ⟨groups, arg, rest, rfl, he⟩
      refine ⟨groups, arg, rest, rfl, fun groups' h => ?_, he, he.message_eq⟩
      obtain ⟨later, rfl⟩ := Group.isPrefix_of_words he.words_append_ne h
      rw [List.flatMap_append]
      exact List.prefix_append _ _
    · rintro ⟨groups, arg, rest, hargs, -, he, -⟩
      exact ⟨groups, arg, rest, hargs, he⟩

/-- A value may look like a flag and the last file counts.  Of arguments that are refused, the
longest beginning that falls into groups leaves the flag without a value. -/
theorem parse_accepts_groups_repeated :
    parse ["--material", "--options", "--wgsl", "--shader", "--material", "b.json"] =
        .ok { material := some "b.json", emit := .shader } ∧
      (∀ groups : List Group,
        groups.flatMap Group.words = ["--material", "--options", "--validate"] →
        groups = [.material "--options", .validate]) ∧
      ∃ (groups : List Group) (arg : String) (rest : List String),
        groups.flatMap Group.words ++ arg :: rest = ["--validate", "--material", "-", "--options"] ∧
        [Group.validate, .material "-"].flatMap Group.words <+: groups.flatMap Group.words ∧
        Group.Refused arg rest (.missingValue .options) := by
  refine ⟨?_, fun groups h => ?_, ?_⟩
  · rw [(parse_accepts_groups _).1]
    exact ⟨[.material "--options", .wgsl, .shader, .material "b.json"], rfl, rfl⟩
  · exact (parse_accepts_groups _).2.1 _ _ h rfl
  · have hparse : parse ["--validate", "--material", "-", "--options"] =
        .error (.missingValue .options) := rfl
    obtain ⟨groups, arg, rest, hargs, hlongest, he, -⟩ :=
      ((parse_accepts_groups _).2.2 _).mp hparse
    exact ⟨groups, arg, rest, hargs, hlongest _ ⟨["--options"], rfl⟩, he⟩

end Arguments

end MaterialGraph.CommandLine
