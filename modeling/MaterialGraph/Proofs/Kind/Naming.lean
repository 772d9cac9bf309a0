import Mathlib.Data.List.Basic
import Mathlib.Tactic.Common
import MaterialGraph.Kind.Schema

/-!
# Names of kinds and modes

A kind is found by its name and a mode by the name it has in its family.  `withMode_eq_ok_iff` says
which kind that is without going through the families: the one that has the two names.  The sockets
do not depend on the mode (`sockets_eq_of_typeName`), and no kind has two sockets of one name.
-/

namespace MaterialGraph.Kind

/-- The kind that is found by a name is the one of the catalog that has it. -/
lemma ofTypeName?_eq_some_iff {name : String} {k : Kind} :
    ofTypeName? name = some k ↔ k ∈ catalog ∧ k.typeName = name := by
  constructor
  · intro h
    exact ⟨List.mem_of_find?_eq_some h, by simpa using List.find?_some h⟩
  · rintro ⟨hk, rfl⟩
    have hcatalog : ∀ k ∈ catalog, ofTypeName? k.typeName = some k := by decide
    exact hcatalog k hk

/-- Every kind is in the catalog up to its mode, and can be had from there by the name of its mode.
The sockets are the same. -/
lemma exists_standard (k : Kind) :
    ∃ standard ∈ catalog, standard.typeName = k.typeName ∧ standard.sockets = k.sockets ∧
      ∀ name, k.modeName? = some name → standard.withMode name = .ok k := by
  cases k with
  | gamma m => exact ⟨gamma Mode.standard, by decide, rfl, rfl, by cases m <;> rintro _ ⟨⟩ <;> rfl⟩
  | lightFalloff m =>
    exact ⟨lightFalloff Mode.standard, by decide, rfl, rfl, by cases m <;> rintro _ ⟨⟩ <;> rfl⟩
  | mix m => exact ⟨mix Mode.standard, by decide, rfl, rfl, by cases m <;> rintro _ ⟨⟩ <;> rfl⟩
  | clamp m => exact ⟨clamp Mode.standard, by decide, rfl, rfl, by cases m <;> rintro _ ⟨⟩ <;> rfl⟩
  | math m => exact ⟨math Mode.standard, by decide, rfl, rfl, by cases m <;> rintro _ ⟨⟩ <;> rfl⟩
  | separateColor m =>
    exact ⟨separateColor Mode.standard, by decide, rfl, rfl, by cases m <;> rintro _ ⟨⟩ <;> rfl⟩
  | vectorMath m =>
    exact ⟨vectorMath Mode.standard, by decide, rfl, rfl, by cases m <;> rintro _ ⟨⟩ <;> rfl⟩
  | _ => exact ⟨_, by decide, rfl, rfl, by rintro _ ⟨⟩⟩

/-- Kinds of one name have the same sockets. -/
lemma sockets_eq_of_typeName {k k' : Kind} (h : k.typeName = k'.typeName) :
    k.sockets = k'.sockets := by
  obtain ⟨s, hs, hname, hsockets, _⟩ := exists_standard k
  obtain ⟨s', hs', hname', hsockets', _⟩ := exists_standard k'
  have hfound := ofTypeName?_eq_some_iff.mpr ⟨hs, hname⟩
  rw [h, ofTypeName?_eq_some_iff.mpr ⟨hs', hname'⟩] at hfound
  rw [← hsockets, ← hsockets', Option.some.inj hfound]

/-- A mode that is read has the name it was read from. -/
lemma readMode_eq_ok {α : Type} [Mode α] {family name : String} {m : α}
    (h : readMode α family name = .ok m) : Mode.name m = name := by
  unfold readMode at h
  cases hm : Mode.ofName? α name with
  | none => simp [hm] at h
  | some m' =>
    obtain rfl : m' = m := by simpa [hm] using h
    simpa using List.find?_some hm

/-- Taking a mode keeps the name of a kind, and the mode has the name that was asked for. -/
lemma names_of_withMode {k k' : Kind} {name : String} (h : k.withMode name = .ok k') :
    k'.typeName = k.typeName ∧ k'.modeName? = some name := by
  -- all families go through `readMode` in the same way
  have hread : ∀ {α : Type} [Mode α] (make : α → Kind),
      (readMode α k.typeName name).map make = .ok k' → ∃ m, make m = k' ∧ Mode.name m = name := by
    intro α _ make hmap
    cases hm : readMode α k.typeName name with
    | error e => simp [hm, Except.map] at hmap
    | ok m => exact ⟨m, by simpa [hm, Except.map] using hmap, readMode_eq_ok hm⟩
  cases k with
  | gamma _ => obtain ⟨m, rfl, rfl⟩ := hread gamma h; exact ⟨rfl, rfl⟩
  | lightFalloff _ => obtain ⟨m, rfl, rfl⟩ := hread lightFalloff h; exact ⟨rfl, rfl⟩
  | mix _ => obtain ⟨m, rfl, rfl⟩ := hread mix h; exact ⟨rfl, rfl⟩
  | clamp _ => obtain ⟨m, rfl, rfl⟩ := hread clamp h; exact ⟨rfl, rfl⟩
  | math _ => obtain ⟨m, rfl, rfl⟩ := hread math h; exact ⟨rfl, rfl⟩
  | separateColor _ => obtain ⟨m, rfl, rfl⟩ := hread separateColor h; exact ⟨rfl, rfl⟩
  | vectorMath _ => obtain ⟨m, rfl, rfl⟩ := hread vectorMath h; exact ⟨rfl, rfl⟩
  | _ => cases h

/-- A mode is refused for one reason: the kind has none of that name. -/
lemma eq_unknownMode_of_withMode {k : Kind} {name : String} {e : GraphError}
    (h : k.withMode name = .error e) : e = .unknownMode k.typeName name := by
  have hread : ∀ {α : Type} [Mode α] (make : α → Kind),
      (readMode α k.typeName name).map make = .error e → e = .unknownMode k.typeName name := by
    intro α _ make hmap
    unfold readMode at hmap
    cases hm : Mode.ofName? α name with
    | some m => simp [hm, Except.map] at hmap
    | none => simpa [hm, Except.map, eq_comm] using hmap
  cases k with
  | gamma _ => exact hread gamma h
  | lightFalloff _ => exact hread lightFalloff h
  | mix _ => exact hread mix h
  | clamp _ => exact hread clamp h
  | math _ => exact hread math h
  | separateColor _ => exact hread separateColor h
  | vectorMath _ => exact hread vectorMath h
  | _ => exact (Except.error.inj h).symm

/-- A kind of the catalog gets by a name the mode that has this name, if there is one. -/
lemma withMode_eq_ok_iff {standard k : Kind} (hstandard : standard ∈ catalog) {name : String} :
    standard.withMode name = .ok k ↔
      k.typeName = standard.typeName ∧ k.modeName? = some name := by
  refine ⟨names_of_withMode, ?_⟩
  rintro ⟨htype, hmode⟩
  obtain ⟨s, hs, hname, _, hwith⟩ := exists_standard k
  have hfound := ofTypeName?_eq_some_iff.mpr ⟨hs, hname⟩
  rw [htype, ofTypeName?_eq_some_iff.mpr ⟨hstandard, rfl⟩] at hfound
  rw [Option.some.inj hfound]
  exact hwith name hmode

/-- No kind has two sockets of one name. -/
lemma nodup_socket_names (k : Kind) : (k.sockets.map SocketSpec.name).Nodup := by
  have hcatalog : ∀ k ∈ catalog, (k.sockets.map SocketSpec.name).Nodup := by decide
  obtain ⟨s, hs, _, hsockets, _⟩ := exists_standard k
  rw [← hsockets]
  exact hcatalog s hs

end MaterialGraph.Kind
