import DriveOverlay.Proofs.Json.Records
import DriveOverlay.Scene.Codec

/-! # The tables of a snapshot

The table of every record below a snapshot is sound: no name occurs in it twice, setting a field
leaves the others as they are, and nothing of the record is missing from it.  Only points are full
records.

* `Point.table` and the others: the tables, each of which gives the codec of its record;
* `Snapshot.codec_tabular`: there are no records below a snapshot but those. -/

namespace DriveOverlay

open Codec (Table)

/-! ### Tables -/

attribute [local simp] Point.fields Lead.fields Cruise.fields SpeedLimit.fields Steering.fields
  Controls.fields Standstill.fields DriverMonitoring.fields Longitudinal.fields Alert.fields
  DisplaySettings.fields Display.fields LiveParameters.fields MapData.fields Wheels.fields
  Device.fields Snapshot.fields

def Point.table : Table Point where
  completeness := .fullRecord
  resting := ⟨0, 0⟩
  fields := Point.fields

def Lead.table : Table Lead where
  completeness := .partialRecord
  resting := {}
  fields := Lead.fields

def Cruise.table : Table Cruise where
  completeness := .partialRecord
  resting := {}
  fields := Cruise.fields

def SpeedLimit.table : Table SpeedLimit where
  completeness := .partialRecord
  resting := {}
  fields := SpeedLimit.fields

def Steering.table : Table Steering where
  completeness := .partialRecord
  resting := {}
  fields := Steering.fields

def Controls.table : Table Controls where
  completeness := .partialRecord
  resting := {}
  fields := Controls.fields

def Standstill.table : Table Standstill where
  completeness := .partialRecord
  resting := {}
  fields := Standstill.fields

def DriverMonitoring.table : Table DriverMonitoring where
  completeness := .partialRecord
  resting := {}
  fields := DriverMonitoring.fields

def Longitudinal.table : Table Longitudinal where
  completeness := .partialRecord
  resting := {}
  fields := Longitudinal.fields

def Alert.table : Table Alert where
  completeness := .partialRecord
  resting := {}
  fields := Alert.fields

def DisplaySettings.table : Table DisplaySettings where
  completeness := .partialRecord
  resting := {}
  fields := DisplaySettings.fields

def Display.table : Table Display where
  completeness := .partialRecord
  resting := {}
  fields := Display.fields

def LiveParameters.table : Table LiveParameters where
  completeness := .partialRecord
  resting := {}
  fields := LiveParameters.fields

def MapData.table : Table MapData where
  completeness := .partialRecord
  resting := {}
  fields := MapData.fields

def Wheels.table : Table (Wheels Float32) where
  completeness := .partialRecord
  resting := ⟨0, 0, 0, 0⟩
  fields := Wheels.fields

def Device.table : Table Device where
  completeness := .partialRecord
  resting := {}
  fields := Device.fields

def Snapshot.table : Table Snapshot where
  completeness := .partialRecord
  resting := {}
  fields := Snapshot.fields
  apart := by
    simp only [Snapshot.fields, Codec.Field.Apart, List.pairwise_cons, List.Pairwise.nil,
      List.mem_cons, List.not_mem_nil, forall_eq_or_imp, IsEmpty.forall_iff, implies_true, and_self]

/-! ### Codecs -/

/-- What is made of leaves, lists, points, and partial records with sound tables. -/
inductive Tabular : {α : Type} → Codec α → Prop
  | flag : Tabular .flag
  | text : Tabular .text
  | texts : Tabular (.pair .text)
  | single : Tabular .single
  | optionalSingle : Tabular .optionalSingle
  | byte : Tabular .byte
  | natural32 : Tabular .natural32
  | natural64 : Tabular .natural64
  | named {α : Type} (all : List α) (name : α → String) : Tabular (.named all name)
  | list {α : Type} {c : Codec α} (items : Tabular c) : Tabular (.list c)
  | point : Tabular Point.table.codec
  | record {α : Type} (t : Table α) (completeness : t.completeness = .partialRecord)
      (fields : ∀ f ∈ t.fields, Tabular f.codec) : Tabular t.codec

attribute [local simp] Tabular.flag Tabular.text Tabular.texts Tabular.single
  Tabular.optionalSingle Tabular.byte Tabular.natural32 Tabular.natural64 Tabular.named Tabular.list
  UnitSystem.codec OffsetPolicy.codec Status.codec AlertSize.codec LaneMode.codec PressureUnit.codec
  LateralControl.codec Polygon.codec

@[simp] theorem Point.codec_tabular : Tabular Point.codec :=
  .point

@[simp] theorem Lead.codec_tabular : Tabular Lead.codec :=
  .record Lead.table rfl (by simp [Lead.table])

@[simp] theorem Cruise.codec_tabular : Tabular Cruise.codec :=
  .record Cruise.table rfl (by simp [Cruise.table])

@[simp] theorem SpeedLimit.codec_tabular : Tabular SpeedLimit.codec :=
  .record SpeedLimit.table rfl (by simp [SpeedLimit.table])

@[simp] theorem Steering.codec_tabular : Tabular Steering.codec :=
  .record Steering.table rfl (by simp [Steering.table])

@[simp] theorem Controls.codec_tabular : Tabular Controls.codec :=
  .record Controls.table rfl (by simp [Controls.table])

@[simp] theorem Standstill.codec_tabular : Tabular Standstill.codec :=
  .record Standstill.table rfl (by simp [Standstill.table])

@[simp] theorem DriverMonitoring.codec_tabular : Tabular DriverMonitoring.codec :=
  .record DriverMonitoring.table rfl (by simp [DriverMonitoring.table])

@[simp] theorem Longitudinal.codec_tabular : Tabular Longitudinal.codec :=
  .record Longitudinal.table rfl (by simp [Longitudinal.table])

@[simp] theorem Alert.codec_tabular : Tabular Alert.codec :=
  .record Alert.table rfl (by simp [Alert.table])

@[simp] theorem DisplaySettings.codec_tabular : Tabular DisplaySettings.codec :=
  .record DisplaySettings.table rfl (by simp [DisplaySettings.table])

@[simp] theorem Display.codec_tabular : Tabular Display.codec :=
  .record Display.table rfl (by simp [Display.table])

@[simp] theorem LiveParameters.codec_tabular : Tabular LiveParameters.codec :=
  .record LiveParameters.table rfl (by simp [LiveParameters.table])

@[simp] theorem MapData.codec_tabular : Tabular MapData.codec :=
  .record MapData.table rfl (by simp [MapData.table])

@[simp] theorem Wheels.codec_tabular : Tabular Wheels.codec :=
  .record Wheels.table rfl (by simp [Wheels.table])

@[simp] theorem Device.codec_tabular : Tabular Device.codec :=
  .record Device.table rfl (by simp [Device.table])

/-- All records below a snapshot have sound tables. -/
theorem Snapshot.codec_tabular : Tabular Snapshot.codec :=
  .record Snapshot.table rfl (by simp [Snapshot.table])

end DriveOverlay
