import DriveOverlay.Json.Codec
import Mathlib.Data.List.Nodup
import Mathlib.Data.List.Pairwise

/-! # Tables of fields

What a record is read as, told field by field.  A table is sound when no name occurs in it twice and
its fields are independent of each other and are all there is to a record; then a record is read
just when every field is given a value, and it is the record of these values.

* `Table`: a record with a sound table;
* `decode?_object_iff`: members and the values they give;
* `decode?_list`: a list of fields is an object of members;
* `decode?_encode_iff`: what comes back of a record that was written. -/

namespace DriveOverlay.Codec

variable {α : Type} {k : Completeness} {members members' : List (String × Json)}

/-! ### Members -/

/-- The values of the members of a name. -/
def valuesOf (name : String) (members : List (String × Json)) : List Json :=
  (members.filter (·.1 = name)).map (·.2)

/-- Sets a field to the one value that it is given, if any. -/
def give? (k : Completeness) (f : Field α) (a : α) : List Json → Option α
  | [] => k.leftOut a
  | [j] => f.assign? j a
  | _ => none

theorem assignMembers?_cons (f : Field α) (fs : List (Field α)) (a : α) :
    assignMembers? k members (f :: fs) a =
      (give? k f a (valuesOf f.name members)).bind (assignMembers? k members fs) := by
  rw [assignMembers?, valuesOf]
  generalize members.filter (·.1 = f.name) = found
  match found with
  | [] | [_] | _ :: _ :: _ => rfl

theorem assignMembers?_eq_foldlM (fs : List (Field α)) (a : α) :
    assignMembers? k members fs a =
      fs.foldlM (fun a f => give? k f a (valuesOf f.name members)) a := by
  induction fs generalizing a with
  | nil => rfl
  | cons f fs ih =>
      rw [assignMembers?_cons, List.foldlM_cons]
      exact congrArg _ (funext ih)

theorem assignMembers?_congr {fs : List (Field α)}
    (h : ∀ f ∈ fs, ∀ a,
      give? k f a (valuesOf f.name members) = give? k f a (valuesOf f.name members'))
    (a : α) : assignMembers? k members fs a = assignMembers? k members' fs a := by
  induction fs generalizing a with
  | nil => rfl
  | cons f fs ih =>
      rw [List.forall_mem_cons] at h
      rw [assignMembers?_cons, assignMembers?_cons, h.1]
      exact congrArg _ (funext (ih h.2))

/-! ### Lists -/

/-- The members that a list of fields stands for. -/
def membersOf (fs : List (Field α)) (items : List Json) : List (String × Json) :=
  List.zipWith (fun f j => (f.name, j)) fs items

theorem valuesOf_membersOf_of_notMem {name : String} {fs : List (Field α)}
    (h : name ∉ fs.map Field.name) (items : List Json) :
    valuesOf name (membersOf fs items) = [] := by
  induction fs generalizing items with
  | nil => rfl
  | cons f fs ih =>
      cases items with
      | nil => rfl
      | cons j items =>
          rw [List.map_cons, List.mem_cons, not_or] at h
          have hf : ¬f.name = name := fun e => h.1 e.symm
          simpa [membersOf, valuesOf, hf] using ih h.2 items

theorem valuesOf_membersOf {fs : List (Field α)} (hn : (fs.map Field.name).Nodup)
    (items : List Json) {i : ℕ} {f : Field α} (hf : fs[i]? = some f) :
    valuesOf f.name (membersOf fs items) = items[i]?.toList := by
  induction fs generalizing items i with
  | nil => cases hf
  | cons g fs ih =>
      rw [List.map_cons, List.nodup_cons] at hn
      cases items with
      | nil => rfl
      | cons j items =>
          cases i with
          | zero =>
              obtain rfl : g = f := Option.some.inj hf
              have hrest := valuesOf_membersOf_of_notMem hn.1 items
              rw [valuesOf, List.map_eq_nil_iff] at hrest
              simp [membersOf, valuesOf] at hrest ⊢
              exact hrest
          | succ i =>
              have hne : ¬g.name = f.name := by
                intro e
                exact hn.1 (e ▸ List.mem_map_of_mem (List.mem_of_getElem? hf))
              simpa [membersOf, valuesOf, hne] using ih hn.2 items hf

theorem assignItems?_eq {fs : List (Field α)} (hn : (fs.map Field.name).Nodup) {items : List Json}
    (hle : items.length ≤ fs.length) (a : α) :
    assignItems? k items fs a = assignMembers? k (membersOf fs items) fs a := by
  induction fs generalizing items a with
  | nil =>
      obtain rfl : items = [] := List.length_eq_zero_iff.mp (Nat.le_zero.mp hle)
      rfl
  | cons f fs ih =>
      have hvalues := valuesOf_membersOf hn items (i := 0) rfl
      rw [assignMembers?_cons, hvalues]
      rw [List.map_cons, List.nodup_cons] at hn
      cases items with
      | nil =>
          have hrest := @ih hn.2 [] (Nat.zero_le _)
          rw [membersOf, List.zipWith_nil_right] at hrest
          exact congrArg _ (funext hrest)
      | cons j items =>
          refine congrArg _ (funext fun a => ?_)
          rw [ih hn.2 (Nat.le_of_succ_le_succ hle)]
          refine assignMembers?_congr (fun g hg a => ?_) a
          have hne : ¬f.name = g.name := fun e => hn.1 (e ▸ List.mem_map_of_mem hg)
          simp [membersOf, valuesOf, hne]

theorem assignItems?_of_lt {fs : List (Field α)} {items : List Json}
    (hlt : fs.length < items.length) (a : α) : assignItems? k items fs a = none := by
  induction fs generalizing items a with
  | nil =>
      cases items with
      | nil => exact absurd hlt (Nat.lt_irrefl _)
      | cons j items => rfl
  | cons f fs ih =>
      cases items with
      | nil => exact absurd hlt (Nat.not_lt_zero _)
      | cons j items =>
          unfold assignItems?
          cases f.assign? j a with
          | none => rfl
          | some a => exact ih (Nat.lt_of_succ_lt_succ hlt) a

/-! ### Sound tables -/

/-- Setting one of two fields leaves the other one as it is. -/
def Field.Apart (f g : Field α) : Prop :=
  (∀ v a, g.get (f.set v a) = g.get a) ∧ ∀ v a, f.get (g.set v a) = f.get a

instance : Std.Symm (Field.Apart (α := α)) where
  symm _ _ h := ⟨h.2, h.1⟩

/-- A record with a sound table of fields.  The laws are decided by evaluation for a table that is
given field by field. -/
structure Table (α : Type) where
  completeness : Completeness
  resting : α
  fields : List (Field α)
  names_nodup : (fields.map Field.name).Nodup := by decide
  get_set : ∀ f ∈ fields, ∀ v a, f.get (f.set v a) = v := by simp
  apart : fields.Pairwise Field.Apart := by simp [Codec.Field.Apart]
  ext : ∀ a b, (∀ f ∈ fields, f.get a = f.get b) → a = b := by
    rintro ⟨⟩ ⟨⟩ h
    simpa using h

namespace Table

variable {t : Table α} {f g : Field α} {a b : α}

/-- The names of the fields. -/
def names (t : Table α) : List String :=
  t.fields.map Field.name

/-- The codec of a record. -/
def codec (t : Table α) : Codec α :=
  .record t.completeness t.resting t.fields

theorem get_set_of_ne (hf : f ∈ t.fields) (hg : g ∈ t.fields) (hne : f ≠ g) (v : f.Value) (a : α) :
    g.get (f.set v a) = g.get a :=
  (t.apart.forall hf hg hne).1 v a

theorem eq_of_name_eq (hf : f ∈ t.fields) (hg : g ∈ t.fields) (h : f.name = g.name) : f = g :=
  List.inj_on_of_nodup_map t.names_nodup hf hg h

theorem set_get (hf : f ∈ t.fields) (a : α) : f.set (f.get a) a = a := by
  refine t.ext _ _ fun g hg => ?_
  by_cases he : f = g
  · subst he
    exact t.get_set f hf _ a
  · exact get_set_of_ne hf hg he _ a

/-- The value that a field is given: the one in the record's resting value, if it may be left out,
or the one that is read. -/
def given? (t : Table α) (f : Field α) : List Json → Option f.Value
  | [] => t.completeness.leftOut (f.get t.resting)
  | [j] => f.codec.decode? j
  | _ => none

theorem give?_eq (hf : f ∈ t.fields) (ha : f.get a = f.get t.resting) (values : List Json) :
    give? t.completeness f a values = (t.given? f values).map (f.set · a) := by
  match values with
  | [] =>
      unfold give? given?
      cases t.completeness with
      | partialRecord => exact congrArg some (ha ▸ set_get hf a).symm
      | fullRecord => rfl
  | [j] => rfl
  | _ :: _ :: _ => rfl

theorem foldlM_give?_iff {values : Field α → List Json} {fs : List (Field α)}
    (hfs : fs ⊆ t.fields) (hn : fs.Nodup) (ha : ∀ f ∈ fs, f.get a = f.get t.resting) :
    fs.foldlM (fun a f => give? t.completeness f a (values f)) a = some b ↔
      (∀ f ∈ fs, t.given? f (values f) = some (f.get b)) ∧
        ∀ g ∈ t.fields, g ∉ fs → g.get b = g.get a := by
  induction fs generalizing a with
  | nil =>
      refine ⟨fun h => ?_, fun h => ?_⟩
      · obtain rfl : a = b := Option.some.inj h
        exact ⟨nofun, fun _ _ _ => rfl⟩
      · exact congrArg some (t.ext _ _ fun f hf => (h.2 f hf List.not_mem_nil).symm)
  | cons f fs ih =>
      obtain ⟨hf, hfs⟩ := List.cons_subset.mp hfs
      obtain ⟨hnot, hn⟩ := List.nodup_cons.mp hn
      obtain ⟨haf, ha⟩ := List.forall_mem_cons.mp ha
      rw [List.foldlM_cons, give?_eq hf haf, List.forall_mem_cons]
      cases hv : t.given? f (values f) with
      | none => exact ⟨nofun, fun h => nomatch h.1.1⟩
      | some v =>
          have hstay {g : Field α} (hg : g ∈ t.fields) (hne : g ≠ f) :
              g.get (f.set v a) = g.get a := get_set_of_ne hf hg hne.symm v a
          have ha' : ∀ g ∈ fs, g.get (f.set v a) = g.get t.resting := by
            intro g hg
            rw [hstay (hfs hg) (fun e => hnot (e ▸ hg)), ha g hg]
          refine (ih hfs hn ha').trans
            ⟨fun ⟨hread, hrest⟩ => ?_, fun ⟨⟨hfirst, hread⟩, hrest⟩ => ?_⟩
          · have hfb := (hrest f hf hnot).trans (t.get_set f hf v a)
            refine ⟨⟨congrArg some hfb.symm, hread⟩, fun g hg hout => ?_⟩
            rw [List.mem_cons, not_or] at hout
            obtain ⟨hne, hout⟩ := hout
            exact (hrest g hg hout).trans (hstay hg hne)
          · have hfb : v = f.get b := Option.some.inj hfirst
            refine ⟨hread, fun g hg hout => ?_⟩
            by_cases he : g = f
            · subst he
              exact hfb.symm.trans (t.get_set g hg v a).symm
            · have hout : g ∉ f :: fs := by
                rw [List.mem_cons, not_or]
                exact ⟨he, hout⟩
              exact (hrest g hg hout).trans (hstay hg he).symm

/-! ### What a record is read as -/

/-- An object is read when every field is given a value, and then these are the values that the
record has. -/
theorem decode?_object_iff (members : List (String × Json)) :
    t.codec.decode? (.object members) = some a ↔
      ∀ f ∈ t.fields, t.given? f (valuesOf f.name members) = some (f.get a) := by
  change assignMembers? t.completeness members t.fields t.resting = some a ↔ _
  rw [assignMembers?_eq_foldlM, foldlM_give?_iff (List.Subset.refl _) t.names_nodup.of_map
    fun _ _ => rfl]
  exact and_iff_left fun g hg hout => absurd hg hout

theorem decode?_object_congr (h : ∀ f ∈ t.fields,
      t.given? f (valuesOf f.name members) = t.given? f (valuesOf f.name members')) :
    t.codec.decode? (.object members) = t.codec.decode? (.object members') := by
  refine Option.ext fun a => ?_
  rw [decode?_object_iff, decode?_object_iff]
  exact forall₂_congr fun f hf => by rw [h f hf]

/-- A list is read as the members that it stands for. -/
theorem decode?_list {items : List Json} (h : items.length ≤ t.fields.length) :
    t.codec.decode? (.list items) = t.codec.decode? (.object (membersOf t.fields items)) :=
  assignItems?_eq t.names_nodup h t.resting

theorem decode?_list_of_lt {items : List Json} (h : t.fields.length < items.length) :
    t.codec.decode? (.list items) = none :=
  assignItems?_of_lt h t.resting

/-- A list is read when every field is given a value by the item at its place, or by the list being
short. -/
theorem decode?_list_iff {items : List Json} (h : items.length ≤ t.fields.length) :
    t.codec.decode? (.list items) = some a ↔
      ∀ (i : ℕ) (f : Field α), t.fields[i]? = some f →
        t.given? f items[i]?.toList = some (f.get a) := by
  rw [decode?_list h, decode?_object_iff]
  refine ⟨fun hread i f hf => ?_, fun hread f hf => ?_⟩
  · rw [← valuesOf_membersOf t.names_nodup items hf]
    exact hread f (List.mem_of_getElem? hf)
  · obtain ⟨i, hi⟩ := List.mem_iff_getElem?.mp hf
    rw [valuesOf_membersOf t.names_nodup items hi]
    exact hread i f hi

/-! ### What a record is written as -/

theorem encode_eq (t : Table α) (a : α) : t.codec.encode a =
    .object (membersOf t.fields (t.fields.map fun f => f.codec.encode (f.get a))) := by
  have h (fs : List (Field α)) : fs.map (fun f => (f.name, f.codec.encode (f.get a))) =
      membersOf fs (fs.map fun f => f.codec.encode (f.get a)) := by
    rw [membersOf, List.zipWith_map_right, List.zipWith_self]
  exact congrArg Json.object (h t.fields)

/-- A record that was written comes back with the values that its fields come back with. -/
theorem decode?_encode_iff : t.codec.decode? (t.codec.encode a) = some b ↔
    ∀ f ∈ t.fields, f.codec.decode? (f.codec.encode (f.get a)) = some (f.get b) := by
  rw [encode_eq, decode?_object_iff]
  refine forall₂_congr fun f hf => ?_
  obtain ⟨i, hi⟩ := List.mem_iff_getElem?.mp hf
  rw [valuesOf_membersOf t.names_nodup _ hi, List.getElem?_map, hi]
  rfl

end Table

end DriveOverlay.Codec
