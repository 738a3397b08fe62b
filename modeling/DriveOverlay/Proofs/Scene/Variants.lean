import DriveOverlay.Proofs.Scene.Tables
import Mathlib.Data.List.Perm.Basic

/-! # Records written otherwise

A snapshot can be written in many ways.  Wherever a record stands, its members may come in any
order and with members between them that nobody knows; those that give a field the value it rests at
may be missing, unless the record is a point; and the record may be a list instead, which stops
before fields that rest.  A known member must not come twice.

* `Table.decode?_of_perm`, `decode?_without`, `decode?_of_repeated`, `decode?_of_lists`: what these
  changes do to the record;
* `Codec.Place`: where records stand, at any depth;
* `Place.decode?_congr`, `Place.decode?_eq_none`: what they do to everything above it;
* `variants_law`: all of it, for any record below a snapshot. -/

namespace DriveOverlay

open Codec (Table)

variable {α β : Type}

namespace Codec

variable {t : Table α} {f : Field α} {a : α}
  {members members' extra before after : List (String × Json)}

/-! ### Values -/

theorem valuesOf_append (name : String) (members members' : List (String × Json)) :
    valuesOf name (members ++ members') = valuesOf name members ++ valuesOf name members' := by
  simp [valuesOf]

theorem valuesOf_cons_self (name : String) (j : Json) (members : List (String × Json)) :
    valuesOf name ((name, j) :: members) = j :: valuesOf name members := by
  simp [valuesOf]

theorem valuesOf_cons_of_ne {name name' : String} (h : name' ≠ name) (j : Json)
    (members : List (String × Json)) :
    valuesOf name ((name', j) :: members) = valuesOf name members := by
  simp [valuesOf, h]

theorem valuesOf_perm (name : String) (h : members'.Perm members) :
    (valuesOf name members').Perm (valuesOf name members) :=
  (h.filter _).map _

theorem valuesOf_of_unknown {name : String} (h : ∀ m ∈ extra, m.1 ≠ name) :
    valuesOf name extra = [] := by
  simpa [valuesOf] using h

theorem membersOf_append_cons {fs : List (Field α)} {before : List Json}
    (hf : fs[before.length]? = some f) (j : Json) (after : List Json) :
    membersOf fs (before ++ j :: after) =
      membersOf fs before ++ (f.name, j) :: membersOf (fs.drop (before.length + 1)) after := by
  induction before generalizing fs with
  | nil =>
      cases fs with
      | nil => cases hf
      | cons g fs =>
          cases hf
          simp [membersOf]
  | cons b before ih =>
      cases fs with
      | nil => cases hf
      | cons g fs => simpa [membersOf] using ih hf

namespace Table

theorem given?_of_perm {values values' : List Json} (h : values'.Perm values) :
    t.given? f values' = t.given? f values := by
  match values, values' with
  | [], _ => rw [h.eq_nil]
  | [j], _ => rw [List.perm_singleton.mp h]
  | _ :: _ :: _, [] => exact absurd h.length_eq (by simp)
  | _ :: _ :: _, [_] => exact absurd h.length_eq (by simp)
  | _ :: _ :: _, _ :: _ :: _ => rfl

theorem given?_append_cons (values values' : List Json) (j : Json) :
    t.given? f (values ++ j :: values') =
      if values = [] ∧ values' = [] then f.codec.decode? j else none := by
  match values, values' with
  | [], [] => rfl
  | [], _ :: _ => rfl
  | _ :: values, values' =>
      rw [if_neg (fun h => nomatch h.1)]
      cases values <;> rfl

/-! ### One record -/

/-- The order of the members does not matter, and neither do members of other names. -/
theorem decode?_of_perm (hextra : ∀ m ∈ extra, m.1 ∉ t.names)
    (h : members'.Perm (members ++ extra)) :
    t.codec.decode? (.object members') = t.codec.decode? (.object members) := by
  refine decode?_object_congr fun f hf => given?_of_perm ?_
  have hnone : valuesOf f.name extra = [] :=
    valuesOf_of_unknown fun m hm e => hextra m hm (e ▸ List.mem_map_of_mem hf)
  have hvalues := valuesOf_perm f.name h
  rwa [valuesOf_append, hnone, List.append_nil] at hvalues

theorem decode?_of_unknown {name : String} (h : name ∉ t.names) (j j' : Json) :
    t.codec.decode? (.object (before ++ (name, j') :: after)) =
      t.codec.decode? (.object (before ++ (name, j) :: after)) := by
  refine decode?_object_congr fun f hf => ?_
  have hne : name ≠ f.name := fun e => h (e ▸ List.mem_map_of_mem hf)
  simp only [valuesOf_append, valuesOf_cons_of_ne hne]

/-- A partial record stays the same without a member that gives a field the value it rests at; no
member of a full record may be missing. -/
theorem decode?_without (hf : f ∈ t.fields) {j : Json}
    (hj : f.codec.decode? j = some (f.get t.resting))
    (h : t.codec.decode? (.object (before ++ (f.name, j) :: after)) = some a) :
    t.codec.decode? (.object (before ++ after)) = t.completeness.leftOut a := by
  have hread := decode?_object_iff _ |>.mp h
  have hf' := hread f hf
  rw [valuesOf_append, valuesOf_cons_self, given?_append_cons] at hf'
  split_ifs at hf' with hone
  have hrests : f.get t.resting = f.get a := Option.some.inj (hj.symm.trans hf')
  have hgone : valuesOf f.name (before ++ after) = [] := by
    rw [valuesOf_append, hone.1, hone.2, List.append_nil]
  cases hk : t.completeness with
  | partialRecord =>
      refine (decode?_object_iff _).mpr fun g hg => ?_
      by_cases he : g = f
      · subst he
        rw [hgone, given?, hk, hrests]
        rfl
      · have hne : f.name ≠ g.name := fun e => he (eq_of_name_eq hf hg e).symm
        have hg' := hread g hg
        rwa [valuesOf_append, valuesOf_cons_of_ne hne, ← valuesOf_append] at hg'
  | fullRecord =>
      refine Option.eq_none_iff_forall_ne_some.mpr fun b hb => ?_
      have hfb := decode?_object_iff _ |>.mp hb f hf
      rw [hgone, given?, hk] at hfb
      cases hfb

/-- A known member must not come twice. -/
theorem decode?_of_repeated (hf : f ∈ t.fields) {j j' : Json} (hj : (f.name, j) ∈ members)
    (h : members'.Perm ((f.name, j') :: members)) :
    t.codec.decode? (.object members') = none := by
  refine Option.eq_none_iff_forall_ne_some.mpr fun b hb => ?_
  have hread := decode?_object_iff _ |>.mp hb f hf
  rw [given?_of_perm (valuesOf_perm f.name h), valuesOf_cons_self] at hread
  obtain ⟨before, after, rfl⟩ := List.append_of_mem hj
  rw [valuesOf_append, valuesOf_cons_self, ← List.cons_append, given?_append_cons,
    if_neg fun h => nomatch h.1] at hread
  cases hread

/-- A list of items for the fields of a record, which may stop before fields that rest. -/
structure Lists (t : Table α) (a : α) (items : List Json) : Prop where
  length_le : items.length ≤ t.fields.length
  decode? : ∀ (i : ℕ) (f : Field α) (j : Json), t.fields[i]? = some f → items[i]? = some j →
    f.codec.decode? j = some (f.get a)
  rests : ∀ (i : ℕ) (f : Field α), t.fields[i]? = some f → items.length ≤ i →
    f.get a = f.get t.resting

/-- A list of the fields is the record; a full record has to be listed in full. -/
theorem decode?_of_lists {items : List Json} (h : t.Lists a items)
    (hk : t.completeness = .partialRecord ∨ items.length = t.fields.length) :
    t.codec.decode? (.list items) = some a := by
  refine (decode?_list_iff h.length_le).mpr fun i f hf => ?_
  cases hi : items[i]? with
  | some j => exact h.decode? i f j hf hi
  | none =>
      have hle := List.getElem?_eq_none_iff.mp hi
      have hlt := (List.getElem?_eq_some_iff.mp hf).1
      rcases hk with hk | hk
      · rw [Option.toList_none, given?, hk, h.rests i f hf hle]
        rfl
      · omega

theorem decode?_of_length {items : List Json} (h : t.fields.length < items.length ∨
    t.completeness = .fullRecord ∧ items.length ≠ t.fields.length) :
    t.codec.decode? (.list items) = none := by
  rcases Nat.lt_or_ge t.fields.length items.length with hlt | hle
  · exact decode?_list_of_lt hlt
  · obtain ⟨hk, hne⟩ := h.resolve_left (Nat.not_lt.mpr hle)
    refine Option.eq_none_iff_forall_ne_some.mpr fun b hb => ?_
    have hlt : items.length < t.fields.length := Nat.lt_of_le_of_ne hle hne
    have hread := (decode?_list_iff hle).mp hb items.length _ (List.getElem?_eq_getElem hlt)
    rw [List.getElem?_eq_none (Nat.le_refl _), Option.toList_none, given?, hk] at hread
    cases hread

/-! ### One member -/

theorem decode?_member_congr (hf : f ∈ t.fields) {j j' : Json}
    (hj : f.codec.decode? j = f.codec.decode? j') :
    t.codec.decode? (.object (before ++ (f.name, j) :: after)) =
      t.codec.decode? (.object (before ++ (f.name, j') :: after)) := by
  refine decode?_object_congr fun g hg => ?_
  rw [valuesOf_append, valuesOf_append]
  by_cases he : f = g
  · subst he
    rw [valuesOf_cons_self, valuesOf_cons_self, given?_append_cons, given?_append_cons, hj]
  · have hne : f.name ≠ g.name := fun e => he (eq_of_name_eq hf hg e)
    rw [valuesOf_cons_of_ne hne, valuesOf_cons_of_ne hne]

theorem decode?_member_eq_none (hf : f ∈ t.fields) {j : Json} (hj : f.codec.decode? j = none) :
    t.codec.decode? (.object (before ++ (f.name, j) :: after)) = none := by
  refine Option.eq_none_iff_forall_ne_some.mpr fun a ha => ?_
  have hread := decode?_object_iff _ |>.mp ha f hf
  rw [valuesOf_append, valuesOf_cons_self, given?_append_cons, hj, ite_self] at hread
  cases hread

theorem exists_decode?_list {before after : List Json}
    (hf : t.fields[before.length]? = some f)
    (hle : before.length + (after.length + 1) ≤ t.fields.length) :
    ∃ members members', ∀ j, t.codec.decode? (.list (before ++ j :: after)) =
      t.codec.decode? (.object (members ++ (f.name, j) :: members')) := by
  refine ⟨membersOf t.fields before, membersOf (t.fields.drop (before.length + 1)) after,
    fun j => ?_⟩
  rw [decode?_list (by simpa using hle), membersOf_append_cons hf]

end Table

/-! ### Places -/

/-- A record with table `t` stands somewhere below what a codec reads, and `C` puts it there. -/
inductive Place {β : Type} (t : Table β) : {α : Type} → Codec α → (Json → Json) → Prop
  | here : Place t t.codec id
  | item {α : Type} {c : Codec α} {C : Json → Json} (inner : Place t c C)
      (before after : List Json) : Place t (.list c) fun j => .list (before ++ C j :: after)
  | member {α : Type} {u : Table α} {f : Field α} {C : Json → Json} (mem : f ∈ u.fields)
      (inner : Place t f.codec C) (before after : List (String × Json)) :
      Place t u.codec fun j => .object (before ++ (f.name, C j) :: after)
  | element {α : Type} {u : Table α} {f : Field α} {C : Json → Json} (before after : List Json)
      (get : u.fields[before.length]? = some f) (inner : Place t f.codec C) :
      Place t u.codec fun j => .list (before ++ C j :: after)

namespace Place

variable {t : Table β} {c : Codec α} {C : Json → Json} {j j' : Json}

/-- What is above a record only depends on what the record is read as. -/
theorem decode?_congr (h : Place t c C) (hj : t.codec.decode? j = t.codec.decode? j') :
    c.decode? (C j) = c.decode? (C j') := by
  induction h with
  | here => exact hj
  | @item _ c C inner before after ih =>
      change (before ++ C j :: after).mapM c.decode? = (before ++ C j' :: after).mapM c.decode?
      rw [List.mapM_append, List.mapM_append, List.mapM_cons, List.mapM_cons, ih]
  | member mem inner before after ih => exact Table.decode?_member_congr mem ih
  | @element _ u f C before after get inner ih =>
      rcases Nat.lt_or_ge u.fields.length (before.length + (after.length + 1)) with hlt | hle
      · rw [Table.decode?_list_of_lt (by simpa using hlt),
          Table.decode?_list_of_lt (by simpa using hlt)]
      · obtain ⟨members, members', he⟩ := Table.exists_decode?_list get hle
        rw [he, he]
        exact Table.decode?_member_congr (List.mem_of_getElem? get) ih

/-- A record that is not read is missed by everything above it. -/
theorem decode?_eq_none (h : Place t c C) (hj : t.codec.decode? j = none) :
    c.decode? (C j) = none := by
  induction h with
  | here => exact hj
  | @item _ c C inner before after ih =>
      change (before ++ C j :: after).mapM c.decode? = none
      rw [List.mapM_append, List.mapM_cons, ih]
      cases before.mapM c.decode? <;> rfl
  | member mem inner before after ih => exact Table.decode?_member_eq_none mem ih
  | @element _ u f C before after get inner ih =>
      rcases Nat.lt_or_ge u.fields.length (before.length + (after.length + 1)) with hlt | hle
      · exact Table.decode?_list_of_lt (by simpa using hlt)
      · obtain ⟨members, members', he⟩ := Table.exists_decode?_list get hle
        rw [he]
        exact Table.decode?_member_eq_none (List.mem_of_getElem? get) ih

end Place

end Codec

/-! ### The law -/

/-- All records below a snapshot but points are partial ones with sound tables, and points are full
ones; controls that say nothing are fresh.  Let a snapshot be read from a text in which a record
stands at any place.  The snapshot stays the same when the members of the record are put in another
order and others of unknown names are added, and when a member of an unknown name gets another
value.  It stays the same without a member that gives its field the value the record rests at,
unless that record is a full one, and then the snapshot is not read.  It is not read with a second
member of a known name.  It stays the same when the record becomes a list of its fields that stops
before fields that rest, and a full record has to be listed in full; it is not read with a list that
is too long. -/
theorem variants_law (t : Table β) (C : Json → Json) (hC : Codec.Place t Snapshot.codec C)
    (members : List (String × Json)) (s : Snapshot)
    (h : Snapshot.codec.decode? (C (.object members)) = some s) :
    (∀ extra members', (∀ m ∈ extra, m.1 ∉ t.names) →
      members'.Perm (members ++ extra) →
        Snapshot.codec.decode? (C (.object members')) = some s) ∧
    (∀ before name j j' after, name ∉ t.names →
      members = before ++ (name, j) :: after →
        Snapshot.codec.decode? (C (.object (before ++ (name, j') :: after))) = some s) ∧
    (∀ f ∈ t.fields, ∀ before j after, members = before ++ (f.name, j) :: after →
      f.codec.decode? j = some (f.get t.resting) →
        Snapshot.codec.decode? (C (.object (before ++ after))) = t.completeness.leftOut s) ∧
    (∀ f ∈ t.fields, ∀ j j' members', (f.name, j) ∈ members →
      members'.Perm ((f.name, j') :: members) →
        Snapshot.codec.decode? (C (.object members')) = none) ∧
    (∃ r, t.codec.decode? (.object members) = some r ∧ ∀ items, t.Lists r items →
      t.completeness = .partialRecord ∨ items.length = t.fields.length →
        Snapshot.codec.decode? (C (.list items)) = some s) ∧
    (∀ items : List Json, t.fields.length < items.length ∨
      t.completeness = .fullRecord ∧ items.length ≠ t.fields.length →
        Snapshot.codec.decode? (C (.list items)) = none) ∧
    Tabular Snapshot.codec ∧ Point.table.completeness = .fullRecord ∧
    Controls.table.resting.updated = true ∧ Controls.table.resting.seenSinceStart = true := by
  have hsame {j : Json} (hj : t.codec.decode? j = t.codec.decode? (.object members)) :
      Snapshot.codec.decode? (C j) = some s := (hC.decode?_congr hj).trans h
  obtain ⟨r, hr⟩ : ∃ r, t.codec.decode? (.object members) = some r := by
    refine Option.ne_none_iff_exists'.mp fun hnone => ?_
    rw [hC.decode?_eq_none hnone] at h
    cases h
  refine ⟨?reordered, ?unknown, ?without, ?repeated, ⟨r, hr, ?listed⟩, ?length,
    Snapshot.codec_tabular, rfl, rfl, rfl⟩
  case reordered => exact fun extra members' hextra hp => hsame (Table.decode?_of_perm hextra hp)
  case unknown =>
    rintro before name j j' after hname rfl
    exact hsame (Table.decode?_of_unknown hname j j')
  case without =>
    rintro f hf before j after rfl hj
    have hwithout := Table.decode?_without hf hj hr
    cases hk : t.completeness with
    | partialRecord =>
        rw [hk] at hwithout
        exact hsame (hwithout.trans hr.symm)
    | fullRecord =>
        rw [hk] at hwithout
        exact hC.decode?_eq_none hwithout
  case repeated =>
    exact fun f hf j j' members' hj hp => hC.decode?_eq_none (Table.decode?_of_repeated hf hj hp)
  case listed =>
    exact fun items hitems hk => hsame ((Table.decode?_of_lists hitems hk).trans hr.symm)
  case length => exact fun items hlength => hC.decode?_eq_none (Table.decode?_of_length hlength)

/-- Controls that are enabled: reordered and with a member of an unknown name, without the flag that
rests, as a list that stops early, and with a flag that comes twice. -/
theorem variants_law_controls :
    let C (j : Json) : Json := .object [("controls", j), ("units", .text "imperial")]
    let updated : String × Json := ("updated", .bool true)
    let enabled : String × Json := ("enabled", .bool true)
    ∃ s, Snapshot.codec.decode? (C (.object [updated, enabled])) = some s ∧
      Snapshot.codec.decode? (C (.object [enabled, ("note", .unreadable), updated])) = some s ∧
      Snapshot.codec.decode? (C (.object [enabled])) = some s ∧
      Snapshot.codec.decode? (C (.list [.bool true])) = some s ∧
      Snapshot.codec.decode? (C (.object [enabled, updated, ("enabled", .null)])) = none := by
  intro C updated enabled
  have hC : Codec.Place Controls.table Snapshot.codec C :=
    .member (u := Snapshot.table)
      (f := ⟨"controls", _, Controls.codec, Snapshot.controls, fun v s => { s with controls := v }⟩)
      (by simp [Snapshot.table, Snapshot.fields]) .here [] [("units", .text "imperial")]
  have h : Snapshot.codec.decode? (C (.object [updated, enabled])) =
      some { controls := { enabled := true }, units := .imperial } := by rfl
  obtain ⟨hreordered, -, hwithout, hrepeated, ⟨r, hr, hlisted⟩, -⟩ :=
    variants_law Controls.table C hC [updated, enabled] _ h
  have hmem (i : ℕ) (hi : i < Controls.table.fields.length) :
      Controls.table.fields[i] ∈ Controls.table.fields := List.getElem_mem hi
  have hread : Controls.table.codec.decode? (.object [updated, enabled]) =
      some { enabled := true } := by rfl
  obtain rfl : { enabled := true } = r := Option.some.inj (hread.symm.trans hr)
  have hlist : Controls.table.Lists { enabled := true } [.bool true] := by
    refine ⟨by decide, fun i f j hf hj => ?_, fun i f hf hi => ?_⟩
    · cases i with
      | zero =>
          cases hf
          cases hj
          rfl
      | succ i => cases hj
    · obtain ⟨i, rfl⟩ := Nat.exists_eq_add_of_le' (hi : 1 ≤ i)
      have hrests : ∀ f ∈ Controls.table.fields.tail,
          f.get ({ enabled := true } : Controls) = f.get Controls.table.resting := by
        simp [Controls.table, Controls.fields]
      exact hrests f (List.mem_of_getElem? (i := i) (by simpa using hf))
  refine ⟨_, h, ?_, ?_, ?_, ?_⟩
  · have hperm : ([enabled, ("note", .unreadable)] ++ [updated]).Perm
        ([updated] ++ [enabled, ("note", .unreadable)]) := List.perm_append_comm
    exact hreordered [("note", .unreadable)] _ (by decide) hperm
  · exact hwithout _ (hmem 2 (by decide)) [] (.bool true) [enabled] rfl rfl
  · exact hlisted _ hlist (.inl rfl)
  · have hperm : ([enabled, updated] ++ [("enabled", Json.null)]).Perm
        ([("enabled", Json.null)] ++ [updated, enabled]) :=
      List.perm_append_comm.trans ((List.Perm.swap _ _ _).cons _)
    exact hrepeated _ (hmem 0 (by decide)) (.bool true) .null _
      (List.mem_cons_of_mem _ List.mem_cons_self) hperm

end DriveOverlay
