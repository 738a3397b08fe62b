import DriveOverlay.Proofs.Scene.Tables
import DriveOverlay.Proofs.Single.Conversion

/-! # Snapshots that are written and read

Whatever is written comes back as it was when all its numbers are finite.  A number that is not has
no literal, and `null` is no number, so that nothing comes back, except for the radar distance, for
which `null` says that there is none.

* `Codec.Keeps`: what comes back of a value, by the numbers in it;
* `Table.keeps`: a record keeps what its fields keep;
* `Snapshot.decode?_encode_iff`: what comes back of a snapshot;
* `roundtrip_law`: all of it, for any snapshot. -/

namespace DriveOverlay

namespace Codec

variable {α : Type}

/-! ### Leaves -/

/-- A value comes back just when the numbers in it are finite, and then it is the same. -/
def Keeps (c : Codec α) (numbers : α → List Float32) : Prop :=
  ∀ a b, c.decode? (c.encode a) = some b ↔ (∀ x ∈ numbers a, x.isFinite = true) ∧ a = b

theorem keeps_of_decode?_encode {c : Codec α} (h : ∀ a, c.decode? (c.encode a) = some a) :
    c.Keeps fun _ => [] := by
  intro a b
  rw [h, Option.some_inj]
  exact (and_iff_right nofun).symm

theorem flag_keeps : flag.Keeps fun _ => [] :=
  keeps_of_decode?_encode fun _ => rfl

theorem text_keeps : text.Keeps fun _ => [] :=
  keeps_of_decode?_encode fun _ => rfl

theorem single_keeps : single.Keeps fun x => [x] := by
  intro x y
  rw [List.forall_mem_singleton]
  cases hx : x.isFinite with
  | true =>
      have hback : single.decode? (single.encode x) = some x := by
        simp [single, hx, Single.ofDouble_toDouble hx]
      rw [hback, Option.some_inj]
      exact (and_iff_right rfl).symm
  | false =>
      have hnone : single.decode? (single.encode x) = none := by simp [single, hx]
      rw [hnone]
      exact ⟨nofun, fun h => nomatch h.1⟩

theorem optionalSingle_decode?_encode (r : Option Float32) :
    optionalSingle.decode? (optionalSingle.encode r) = some (r.filter Float32.isFinite) := by
  cases r with
  | none => rfl
  | some x =>
      cases hx : x.isFinite with
      | true => simp [optionalSingle, single, Option.filter, hx, Single.ofDouble_toDouble hx]
      | false => simp [optionalSingle, single, Option.filter, hx]

theorem natural_keeps {toNat : α → ℕ} {ofNat : ℕ → α} {bound : ℕ} (hlt : ∀ a, toNat a < bound)
    (hback : ∀ a, ofNat (toNat a) = a) :
    Keeps ⟨fun a => .whole (toNat a), fun j => (natural? bound j).map ofNat⟩ fun _ => [] := by
  refine keeps_of_decode?_encode fun a => ?_
  have hread : natural? bound (.whole (toNat a)) = some (toNat a) := by simp [natural?, hlt a]
  simp only [hread, Option.map_some, hback]

theorem byte_keeps : byte.Keeps fun _ => [] :=
  natural_keeps UInt8.toNat_lt fun _ => UInt8.ofNat_toNat

theorem natural32_keeps : natural32.Keeps fun _ => [] :=
  natural_keeps UInt32.toNat_lt fun _ => UInt32.ofNat_toNat

theorem natural64_keeps : natural64.Keeps fun _ => [] :=
  natural_keeps UInt64.toNat_lt fun _ => UInt64.ofNat_toNat

theorem named_keeps {all : List α} {name : α → String}
    (h : ∀ a, (all.find? fun b => name b = name a) = some a) : (named all name).Keeps fun _ => [] :=
  keeps_of_decode?_encode h

/-! ### Lists -/

theorem list_keeps {c : Codec α} {numbers : α → List Float32} (h : c.Keeps numbers) :
    (list c).Keeps (List.flatMap numbers) := by
  intro as bs
  change (as.map c.encode).mapM c.decode? = some bs ↔ _
  induction as generalizing bs with
  | nil => exact Option.some_inj.trans (and_iff_right nofun).symm
  | cons a as ih =>
      rw [List.map_cons, List.mapM_cons, List.flatMap_cons, List.forall_mem_append]
      simp only [Option.bind_eq_bind, Option.bind_eq_some_iff, h a, ih, Option.pure_def,
        Option.some_inj]
      refine ⟨?_, fun ⟨⟨ha, has⟩, he⟩ => ⟨a, ⟨ha, rfl⟩, as, ⟨has, rfl⟩, he⟩⟩
      rintro ⟨_, ⟨ha, rfl⟩, _, ⟨has, rfl⟩, he⟩
      exact ⟨⟨ha, has⟩, he⟩

theorem pair_keeps {c : Codec α} {numbers : α → List Float32} (h : c.Keeps numbers) :
    (pair c).Keeps fun p => numbers p.1 ++ numbers p.2 := by
  rintro ⟨a, b⟩ q
  rw [List.forall_mem_append]
  simp only [pair, Option.bind_eq_bind, Option.bind_eq_some_iff, h a, h b, Option.pure_def,
    Option.some_inj]
  refine ⟨?_, fun ⟨⟨ha, hb⟩, he⟩ => ⟨a, ⟨ha, rfl⟩, b, ⟨hb, rfl⟩, he⟩⟩
  rintro ⟨_, ⟨ha, rfl⟩, _, ⟨hb, rfl⟩, he⟩
  exact ⟨⟨ha, hb⟩, he⟩

/-! ### Records -/

/-- The numbers in each of some fields. -/
inductive Columns : List (Field α) → Type 1
  | nil : Columns []
  | cons {f : Field α} {fs : List (Field α)} {numbers : f.Value → List Float32}
      (keeps : f.codec.Keeps numbers) (rest : Columns fs) : Columns (f :: fs)

/-- All of them. -/
def Columns.numbers : {fs : List (Field α)} → Columns fs → α → List Float32
  | _, .nil, _ => []
  | _, @Columns.cons _ f _ numbers _ rest, a => numbers (f.get a) ++ rest.numbers a

theorem Columns.decode?_encode_iff {fs : List (Field α)} (columns : Columns fs) {a b : α} :
    (∀ f ∈ fs, f.codec.decode? (f.codec.encode (f.get a)) = some (f.get b)) ↔
      (∀ x ∈ columns.numbers a, x.isFinite = true) ∧ ∀ f ∈ fs, f.get a = f.get b := by
  induction columns with
  | nil => simp [Columns.numbers]
  | cons keeps rest ih =>
      rw [List.forall_mem_cons, List.forall_mem_cons, keeps, ih, Columns.numbers,
        List.forall_mem_append]
      exact and_and_and_comm

/-- A record comes back when its fields do. -/
theorem Table.keeps (t : Table α) (columns : Columns t.fields) : t.codec.Keeps columns.numbers := by
  intro a b
  rw [Table.decode?_encode_iff, columns.decode?_encode_iff]
  exact and_congr_right' ⟨t.ext a b, fun h f _ => h ▸ rfl⟩

end Codec

open Codec

/-! ### Names -/

theorem UnitSystem.codec_keeps : UnitSystem.codec.Keeps fun _ => [] :=
  named_keeps fun a => by cases a <;> rfl

theorem OffsetPolicy.codec_keeps : OffsetPolicy.codec.Keeps fun _ => [] :=
  named_keeps fun a => by cases a <;> rfl

theorem Status.codec_keeps : Status.codec.Keeps fun _ => [] :=
  named_keeps fun a => by cases a <;> rfl

theorem AlertSize.codec_keeps : AlertSize.codec.Keeps fun _ => [] :=
  named_keeps fun a => by cases a <;> rfl

theorem LaneMode.codec_keeps : LaneMode.codec.Keeps fun _ => [] :=
  named_keeps fun a => by cases a <;> rfl

theorem PressureUnit.codec_keeps : PressureUnit.codec.Keeps fun _ => [] :=
  named_keeps fun a => by cases a <;> rfl

theorem LateralControl.codec_keeps : LateralControl.codec.Keeps fun _ => [] :=
  named_keeps fun a => by cases a <;> rfl

/-! ### Parts of a snapshot -/

def Point.numbers (p : Point) : List Float32 :=
  [p.x, p.y]

theorem Point.codec_keeps : Point.codec.Keeps Point.numbers :=
  Point.table.keeps <|
    .cons single_keeps <| .cons single_keeps .nil

def Lead.numbers (l : Lead) : List Float32 :=
  [l.distance, l.relativeSpeed, l.lateral]

theorem Lead.codec_keeps : Lead.codec.Keeps Lead.numbers :=
  Lead.table.keeps <|
    .cons single_keeps <| .cons single_keeps <| .cons single_keeps <| .cons flag_keeps .nil

def Cruise.numbers (c : Cruise) : List Float32 :=
  [c.maxSpeed, c.heldSpeed]

theorem Cruise.codec_keeps : Cruise.codec.Keeps Cruise.numbers :=
  Cruise.table.keeps <|
    .cons single_keeps <| .cons single_keeps <| .cons flag_keeps .nil

def SpeedLimit.numbers (l : SpeedLimit) : List Float32 :=
  [l.value, l.offset]

theorem SpeedLimit.codec_keeps : SpeedLimit.codec.Keeps SpeedLimit.numbers :=
  SpeedLimit.table.keeps <|
    .cons single_keeps <| .cons single_keeps <| .cons OffsetPolicy.codec_keeps .nil

def Steering.numbers (s : Steering) : List Float32 :=
  [s.angle, s.output, s.limit]

theorem Steering.codec_keeps : Steering.codec.Keeps Steering.numbers :=
  Steering.table.keeps <|
    .cons single_keeps <| .cons flag_keeps <| .cons single_keeps <| .cons single_keeps .nil

def Controls.numbers (c : Controls) : List Float32 :=
  [c.secondsSinceUpdate]

theorem Controls.codec_keeps : Controls.codec.Keeps Controls.numbers :=
  Controls.table.keeps <|
    .cons flag_keeps <| .cons flag_keeps <| .cons flag_keeps <| .cons natural64_keeps <|
    .cons flag_keeps <| .cons single_keeps .nil

def Standstill.numbers (s : Standstill) : List Float32 :=
  [s.elapsed]

theorem Standstill.codec_keeps : Standstill.codec.Keeps Standstill.numbers :=
  Standstill.table.keeps <|
    .cons flag_keeps <| .cons single_keeps .nil

theorem DriverMonitoring.codec_keeps : DriverMonitoring.codec.Keeps fun _ => [] :=
  DriverMonitoring.table.keeps <|
    .cons flag_keeps <| .cons flag_keeps .nil

def Longitudinal.numbers (l : Longitudinal) : List Float32 :=
  [l.dynamicValue]

theorem Longitudinal.codec_keeps : Longitudinal.codec.Keeps Longitudinal.numbers :=
  Longitudinal.table.keeps <|
    .cons flag_keeps <| .cons byte_keeps <| .cons byte_keeps <| .cons single_keeps .nil

theorem Alert.codec_keeps : Alert.codec.Keeps fun _ => [] :=
  Alert.table.keeps <|
    .cons text_keeps <| .cons text_keeps <| .cons text_keeps <| .cons AlertSize.codec_keeps .nil

theorem DisplaySettings.codec_keeps : DisplaySettings.codec.Keeps fun _ => [] :=
  DisplaySettings.table.keeps <|
    .cons byte_keeps <| .cons flag_keeps <| .cons LaneMode.codec_keeps <|
    .cons PressureUnit.codec_keeps .nil

theorem Display.codec_keeps : Display.codec.Keeps fun _ => [] :=
  Display.table.keeps <|
    .cons DisplaySettings.codec_keeps <| .cons flag_keeps <| .cons flag_keeps <| .cons flag_keeps <|
    .cons flag_keeps <| .cons flag_keeps .nil

def LiveParameters.numbers (p : LiveParameters) : List Float32 :=
  [p.steerRatio, p.angleOffset, p.stiffness, p.actuatorDelay, p.rateCost, p.leftProbability,
    p.rightProbability]

theorem LiveParameters.codec_keeps : LiveParameters.codec.Keeps LiveParameters.numbers :=
  LiveParameters.table.keeps <|
    .cons single_keeps <| .cons single_keeps <| .cons single_keeps <| .cons single_keeps <|
    .cons single_keeps <| .cons single_keeps <| .cons single_keeps <|
    .cons LateralControl.codec_keeps .nil

def MapData.numbers (m : MapData) : List Float32 :=
  [m.speedLimit, m.speedLimitAhead, m.speedLimitAheadDistance, m.turnSpeedLimit,
    m.turnSpeedLimitEndDistance, m.turnSpeedLimitSign]

theorem MapData.codec_keeps : MapData.codec.Keeps MapData.numbers :=
  MapData.table.keeps <|
    .cons single_keeps <| .cons single_keeps <| .cons single_keeps <| .cons single_keeps <|
    .cons single_keeps <| .cons single_keeps .nil

def Wheels.numbers (w : Wheels Float32) : List Float32 :=
  w.toList

theorem Wheels.codec_keeps : Wheels.codec.Keeps Wheels.numbers :=
  Wheels.table.keeps <|
    .cons single_keeps <| .cons single_keeps <| .cons single_keeps <| .cons single_keeps .nil

def Device.numbers (d : Device) : List Float32 :=
  [d.cpuTemperature, d.cpuUsage, d.batteryTemperature, d.ambientTemperature, d.batteryPercent,
    d.fanSpeed, d.gpsAccuracy, d.altitude] ++ d.tirePressures.numbers

theorem Device.codec_keeps : Device.codec.Keeps Device.numbers :=
  Device.table.keeps <|
    .cons single_keeps <| .cons single_keeps <| .cons single_keeps <| .cons single_keeps <|
    .cons single_keeps <| .cons flag_keeps <| .cons flag_keeps <| .cons single_keeps <|
    .cons single_keeps <| .cons natural32_keeps <| .cons single_keeps <|
    .cons Wheels.codec_keeps .nil

theorem Polygon.codec_keeps : Polygon.codec.Keeps (List.flatMap Point.numbers) :=
  list_keeps Point.codec_keeps

/-! ### Snapshots -/

namespace Snapshot

variable {s s' : Snapshot}

/-- All numbers of a snapshot but the radar distance. -/
def numbers (s : Snapshot) : List Float32 :=
  [s.speed] ++ s.cruise.numbers ++ s.leads.flatMap Lead.numbers ++ s.laneProbabilities ++
    s.laneLines.flatMap (List.flatMap Point.numbers) ++
    s.roadEdges.flatMap (List.flatMap Point.numbers) ++ s.roadEdgeDeviations ++
    s.path.flatMap Point.numbers ++ s.steering.numbers ++ s.speedLimit.numbers ++
    s.controls.numbers ++ s.standstill.numbers ++ s.liveParameters.numbers ++ s.mapData.numbers ++
    s.longitudinal.numbers ++ s.device.numbers

/-- The snapshot without a radar distance that is not finite. -/
def settled (s : Snapshot) : Snapshot :=
  { s with radarDistance := s.radarDistance.filter Float32.isFinite }

/-- The fields before the radar distance. -/
def columnsBefore : Columns (fields.take 5) :=
  .cons natural64_keeps <| .cons single_keeps <| .cons Cruise.codec_keeps <|
    .cons UnitSystem.codec_keeps <| .cons (list_keeps Lead.codec_keeps) .nil

/-- The fields after it. -/
def columnsAfter : Columns (fields.drop 6) :=
  .cons (list_keeps single_keeps) <| .cons (list_keeps Polygon.codec_keeps) <|
    .cons (list_keeps Polygon.codec_keeps) <| .cons (list_keeps single_keeps) <|
    .cons Polygon.codec_keeps <| .cons Steering.codec_keeps <| .cons SpeedLimit.codec_keeps <|
    .cons Status.codec_keeps <| .cons Controls.codec_keeps <| .cons Alert.codec_keeps <|
    .cons Standstill.codec_keeps <| .cons Display.codec_keeps <|
    .cons DriverMonitoring.codec_keeps <| .cons LiveParameters.codec_keeps <|
    .cons MapData.codec_keeps <| .cons Longitudinal.codec_keeps <| .cons Device.codec_keeps <|
    .cons (pair_keeps text_keeps) .nil

theorem forall_mem_numbers_iff {p : Float32 → Prop} : (∀ x ∈ s.numbers, p x) ↔
    (∀ x ∈ columnsBefore.numbers s, p x) ∧ ∀ x ∈ columnsAfter.numbers s, p x := by
  simp only [numbers, columnsBefore, columnsAfter, Columns.numbers, List.flatMap_singleton',
    List.forall_mem_append, List.not_mem_nil, false_implies, implies_true, true_and, and_true,
    and_assoc]

/-- The field between them. -/
def radarField : Codec.Field Snapshot :=
  ⟨"radar_distance", _, .optionalSingle, Snapshot.radarDistance,
    fun v s => { s with radarDistance := v }⟩

theorem table_fields : table.fields = fields.take 5 ++ radarField :: fields.drop 6 := rfl

theorem get_settled : ∀ f ∈ fields.take 5 ++ fields.drop 6, f.get s = f.get s.settled := by
  simp [fields, settled]

theorem settled_of_isFinite (h : ∀ x ∈ s.radarDistance, x.isFinite = true) : s.settled = s := by
  have hradar : s.radarDistance.filter Float32.isFinite = s.radarDistance := by
    cases hs : s.radarDistance with
    | none => rfl
    | some x => rw [Option.filter_some, if_pos (h x hs)]
  rw [settled, hradar]

theorem settled_of_not_isFinite (h : ∃ x ∈ s.radarDistance, x.isFinite = false) :
    s.settled = { s with radarDistance := none } := by
  obtain ⟨x, hx, hinfinite⟩ := h
  have hradar : s.radarDistance.filter Float32.isFinite = none := by
    rw [Option.mem_def.mp hx, Option.filter_some, hinfinite]
    rfl
  rw [settled, hradar]

/-- A snapshot comes back when all numbers but the radar distance are finite. -/
theorem decode?_encode_iff : codec.decode? (codec.encode s) = some s' ↔
    (∀ x ∈ s.numbers, x.isFinite = true) ∧ s.settled = s' := by
  have hradar : optionalSingle.decode? (optionalSingle.encode s.radarDistance) =
      some s'.radarDistance ↔ s.settled.radarDistance = s'.radarDistance := by
    rw [optionalSingle_decode?_encode, Option.some_inj]
    rfl
  refine (Table.decode?_encode_iff (t := table)).trans ?_
  rw [table_fields, List.forall_mem_append, List.forall_mem_cons,
    columnsBefore.decode?_encode_iff, columnsAfter.decode?_encode_iff, forall_mem_numbers_iff]
  obtain ⟨hbefore, hafter⟩ := List.forall_mem_append.mp (get_settled (s := s))
  constructor
  · rintro ⟨⟨hfront, hsame⟩, hr, hback, hsame'⟩
    refine ⟨⟨hfront, hback⟩, table.ext _ _ ?_⟩
    rw [table_fields, List.forall_mem_append, List.forall_mem_cons]
    exact ⟨fun f hf => (hbefore f hf).symm.trans (hsame f hf), hradar.mp hr,
      fun f hf => (hafter f hf).symm.trans (hsame' f hf)⟩
  · rintro ⟨⟨hfront, hback⟩, rfl⟩
    exact ⟨⟨hfront, hbefore⟩, hradar.mpr rfl, hback, hafter⟩

end Snapshot

/-! ### The law -/

/-- What is written of a snapshot is read as the same snapshot when all its numbers are finite, as
one without radar distance when that is the only number that is not, and not at all when there is
another one. -/
theorem roundtrip_law (s : Snapshot) :
    ((∀ x ∈ s.numbers, x.isFinite = true) → (∀ x ∈ s.radarDistance, x.isFinite = true) →
      Snapshot.codec.decode? (Snapshot.codec.encode s) = some s) ∧
    ((∀ x ∈ s.numbers, x.isFinite = true) → (∃ x ∈ s.radarDistance, x.isFinite = false) →
      Snapshot.codec.decode? (Snapshot.codec.encode s) = some { s with radarDistance := none }) ∧
    ((∃ x ∈ s.numbers, x.isFinite = false) →
      Snapshot.codec.decode? (Snapshot.codec.encode s) = none) := by
  refine ⟨fun hn hr => ?_, fun hn hr => ?_, fun hn => ?_⟩
  · exact Snapshot.decode?_encode_iff.mpr ⟨hn, Snapshot.settled_of_isFinite hr⟩
  · exact Snapshot.decode?_encode_iff.mpr ⟨hn, Snapshot.settled_of_not_isFinite hr⟩
  · obtain ⟨x, hx, hinfinite⟩ := hn
    refine Option.eq_none_iff_forall_ne_some.mpr fun s' hs' => ?_
    rw [(Snapshot.decode?_encode_iff.mp hs').1 x hx] at hinfinite
    cases hinfinite

/-- The last frame there is, far satellites, a road edge at the negative zero, and a radar that
overflows. -/
theorem roundtrip_law_extremes :
    let s : Snapshot := { frame := 18446744073709551615, roadEdges := [[], [⟨-0, 3.4e38⟩]],
                          device := { satellites := 4294967295 }, radarDistance := some (1 / 0),
                          debugText := ("\x22", "") }
    Snapshot.codec.decode? (Snapshot.codec.encode s) = some { s with radarDistance := none } :=
  (roundtrip_law _).2.1 (by decide +kernel) ⟨1 / 0, rfl, by decide +kernel⟩

end DriveOverlay
