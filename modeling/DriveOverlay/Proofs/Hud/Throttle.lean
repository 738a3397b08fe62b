import DriveOverlay.Hud.Values
import Mathlib.Algebra.GroupWithZero.Nat
import Mathlib.Data.List.Induction

/-! # Held flags and nothing else

A run is what calls of a new deriver give, one after the other.  The deriver looks at the held flags
in the frames whose number is a multiple of the period (`lastLook`), and in between it shows what it
saw then.

* `frame_run`: as many frames are counted as there were calls;
* `held_run`: the flags held are those of the snapshot of the last look;
* `getElem?_values_run`: the values of a frame come from the deriver that the calls before it left;
* `Snapshot.hudValues_withFlags`: all other values of a frame are those of its snapshot.

`throttle_law` puts them together: the flags have the age of the last look, and nothing else has a
memory. -/

namespace DriveOverlay

/-! ### Values without the flags -/

/-- The values with other held flags. -/
def HudValues.withFlags (v : HudValues) (held : HeldFlags) : HudValues :=
  { v with engageable := held.engageable, driverMonitored := held.driverMonitored }

/-- The held flags decide nothing but themselves. -/
theorem Snapshot.hudValues_withFlags (s : Snapshot) (onScreen : AlertSize)
    (held held' : HeldFlags) :
    (s.hudValues onScreen held).withFlags held' = s.hudValues onScreen held' :=
  rfl

theorem Snapshot.hudValues_withAlert (s : Snapshot) (alert : Alert) (onScreen : AlertSize)
    (held : HeldFlags) :
    { s with alert := alert }.hudValues onScreen held = s.hudValues onScreen held :=
  rfl

namespace HudDeriver

/-! ### Runs -/

/-- A call of the deriver: a snapshot, and the alert on screen. -/
abbrev Call := Snapshot × Alert

/-- The calls show the same but for the flags: the snapshots agree in all but the raw alert, and the
alerts on screen have one size. -/
def Call.LooksLike (call call' : Call) : Prop :=
  { call.1 with alert := .empty } = { call'.1 with alert := .empty } ∧ call.2.size = call'.2.size

/-- A deriver, and the values that it gave. -/
structure Run where
  deriver : HudDeriver
  values : List HudValues := []

/-- One more call. -/
def Run.step (r : Run) (call : Call) : Run :=
  let (deriver, values) := r.deriver.derive call.1 call.2
  ⟨deriver, r.values ++ [values]⟩

/-- The run of a new deriver. -/
def run (frames : UInt64) (calls : List Call) : Run :=
  calls.foldl Run.step ⟨.every frames, []⟩

/-- How many frames a look holds. -/
def period (frames : UInt64) : ℕ :=
  max frames.toNat 1

/-- The last frame up to number `k` in which the flags are looked at. -/
def lastLook (period k : ℕ) : ℕ :=
  k - k % period

theorem lastLook_eq (period k : ℕ) : lastLook period k = period * (k / period) := by
  have h := Nat.div_add_mod k period
  rw [lastLook]
  omega

theorem lastLook_le (period k : ℕ) : lastLook period k ≤ k :=
  Nat.sub_le k (k % period)

theorem lastLook_of_mod_eq_zero {period k : ℕ} (h : k % period = 0) : lastLook period k = k := by
  rw [lastLook, h, Nat.sub_zero]

theorem lastLook_succ {period k : ℕ} (h : (k + 1) % period ≠ 0) :
    lastLook period (k + 1) = lastLook period k := by
  rw [lastLook_eq, lastLook_eq, Nat.succ_div_of_not_dvd (mt Nat.mod_eq_zero_of_dvd h)]

variable (frames : UInt64) (calls : List Call) (call : Call)

theorem run_concat : run frames (calls ++ [call]) = (run frames calls).step call := by
  unfold run
  rw [List.foldl_append, List.foldl_cons, List.foldl_nil]

/-! ### Counting -/

theorem throttle_run : (run frames calls).deriver.throttle.toNat = period frames := by
  induction calls using List.reverseRecOn with
  | nil =>
      change (max frames 1).toNat = max frames.toNat 1
      rw [show max frames 1 = if frames ≤ 1 then 1 else frames from rfl]
      split
      · rename_i h
        exact (Nat.max_eq_right (UInt64.le_iff_toNat_le.mp h)).symm
      · rename_i h
        rw [UInt64.le_iff_toNat_le, Nat.not_le] at h
        exact (Nat.max_eq_left (Nat.le_of_lt h)).symm
  | append_singleton calls call ih =>
      rw [run_concat]
      exact ih

/-- Frames are counted in 64 bits. -/
theorem frame_run : (run frames calls).deriver.frame.toNat = calls.length % 2 ^ 64 := by
  induction calls using List.reverseRecOn with
  | nil => rfl
  | append_singleton calls call ih =>
      rw [run_concat, List.length_append, List.length_singleton, ← Nat.mod_add_mod, ← ih]
      exact UInt64.toNat_add _ _

/-! ### The flags -/

/-- The deriver looks at the flags when the number of the frame is a multiple of the period. -/
theorem look_run (h : calls.length < 2 ^ 64) (s : Snapshot) :
    (run frames calls).deriver.look s = if calls.length % period frames = 0 then s.heldFlags
      else (run frames calls).deriver.held := by
  have hmod : ((run frames calls).deriver.frame % (run frames calls).deriver.throttle).toNat =
      calls.length % period frames := by
    rw [UInt64.toNat_mod, frame_run, throttle_run, Nat.mod_eq_of_lt h]
  unfold look
  congr 1
  rw [← hmod, ← UInt64.toNat_inj]
  rfl

theorem held_run_concat : (run frames (calls ++ [call])).deriver.held =
    (run frames calls).deriver.look call.1 := by
  rw [run_concat]
  rfl

/-- The flags held after a frame are those of the snapshot of the last look. -/
theorem held_run (h : calls.length < 2 ^ 64) :
    (calls ++ [call])[lastLook (period frames) calls.length]?.map (·.1.heldFlags) =
      some (run frames (calls ++ [call])).deriver.held := by
  rw [held_run_concat, look_run frames calls h]
  induction calls using List.reverseRecOn generalizing call with
  | nil => rfl
  | append_singleton calls last ih =>
      by_cases hmod : (calls ++ [last]).length % period frames = 0
      · rw [if_pos hmod, lastLook_of_mod_eq_zero hmod, List.getElem?_concat_length, Option.map_some]
      · rw [if_neg hmod, held_run_concat]
        rw [List.length_append, List.length_singleton] at h hmod ⊢
        have hle := lastLook_le (period frames) calls.length
        rw [lastLook_succ hmod, List.getElem?_append_left (by simp; omega),
          ih last (by omega), look_run frames calls (by omega)]

/-! ### The values -/

theorem values_run_concat : (run frames (calls ++ [call])).values =
    (run frames calls).values ++ [((run frames calls).deriver.derive call.1 call.2).2] := by
  rw [run_concat]
  rfl

theorem length_values_run : (run frames calls).values.length = calls.length := by
  induction calls using List.reverseRecOn with
  | nil => rfl
  | append_singleton calls call ih =>
      rw [values_run_concat, List.length_append, List.length_append, ih]
      rfl

/-- The values of a frame come from the deriver that the calls before it left. -/
theorem getElem?_values_run {k : ℕ} (hk : calls[k]? = some call) :
    (run frames calls).values[k]? =
      some ((run frames (calls.take k)).deriver.derive call.1 call.2).2 := by
  induction calls using List.reverseRecOn with
  | nil => cases hk
  | append_singleton calls last ih =>
      rw [values_run_concat]
      rcases Nat.lt_trichotomy k calls.length with hlt | rfl | hgt
      · rw [List.getElem?_append_left hlt] at hk
        rw [List.getElem?_append_left (by rwa [length_values_run]), ih hk,
          List.take_append_of_le_length (Nat.le_of_lt hlt)]
      · rw [List.getElem?_concat_length] at hk
        obtain rfl := Option.some.inj hk
        rw [List.take_left' rfl]
        conv_lhs => rw [← length_values_run frames calls]
        rw [List.getElem?_concat_length]
      · rw [List.getElem?_eq_none (by simp; omega)] at hk
        cases hk

theorem getElem?_lastLook {k : ℕ} (hk : calls[k]? = some call) (h : calls.length < 2 ^ 64) :
    calls[lastLook (period frames) k]?.map (·.1.heldFlags) =
      some ((run frames (calls.take k)).deriver.look call.1) := by
  have hlt : k < calls.length := (List.getElem?_eq_some_iff.mp hk).1
  have htake : calls.take (k + 1) = calls.take k ++ [call] := by
    rw [List.take_add_one, hk]
    rfl
  have hlen : (calls.take k).length = k := List.length_take_of_le (Nat.le_of_lt hlt)
  have hheld := held_run frames (calls.take k) call (by omega)
  have hle := lastLook_le (period frames) k
  rw [hlen, held_run_concat, ← htake, List.getElem?_take_of_lt (by omega)] at hheld
  exact hheld

theorem Call.LooksLike.withFlags_eq {call call' : Call} (h : call'.LooksLike call)
    (held held' : HeldFlags) : (call'.1.hudValues call'.2.size held').withFlags {} =
      (call.1.hudValues call.2.size held).withFlags {} := by
  obtain ⟨hs, ha⟩ := h
  rw [Snapshot.hudValues_withFlags, Snapshot.hudValues_withFlags,
    ← Snapshot.hudValues_withAlert call'.1 .empty, hs, ha, Snapshot.hudValues_withAlert]

/-! ### The law -/

/-- **The throttle law.**  In a run of fewer than `2 ^ 64` calls, the held flags of frame `k` are
those of the snapshot of the last frame up to it whose number is a multiple of the period; all its
other values are those of any frame, of any run, that looks like it; and `k + 1` frames have been
counted then. -/
theorem throttle_law (frames : UInt64) (calls : List Call) (h : calls.length < 2 ^ 64) :
    (run frames calls).values.length = calls.length ∧
    ∀ k call, calls[k]? = some call →
      (run frames (calls.take (k + 1))).deriver.frame.toNat = k + 1 ∧
      ∃ v look, (run frames calls).values[k]? = some v ∧
        calls[k - k % max frames.toNat 1]? = some look ∧
        v.engageable = (look.1.controls.engageable || look.1.controls.enabled) ∧
        v.driverMonitored = look.1.driverMonitoring.active ∧
        ∀ (frames' : UInt64) (calls' : List Call) (k' : ℕ) (call' : Call) (v' : HudValues),
          calls'[k']? = some call' → (run frames' calls').values[k']? = some v' →
            call'.LooksLike call → v'.withFlags {} = v.withFlags {} := by
  refine ⟨length_values_run frames calls, fun k call hk => ⟨?_, ?_⟩⟩
  · have hlt : k < calls.length := (List.getElem?_eq_some_iff.mp hk).1
    rw [frame_run, List.length_take_of_le hlt, Nat.mod_eq_of_lt (by omega)]
  · obtain ⟨look, hlook, hflags⟩ :=
      Option.map_eq_some_iff.mp (getElem?_lastLook frames calls call hk h)
    refine ⟨_, look, getElem?_values_run frames calls call hk, hlook, ?_, ?_, ?_⟩
    · exact congrArg HeldFlags.engageable hflags.symm
    · exact congrArg HeldFlags.driverMonitored hflags.symm
    · intro frames' calls' k' call' v' hk' hv' hlike
      rw [getElem?_values_run frames' calls' call' hk'] at hv'
      obtain rfl := Option.some.inj hv'
      exact hlike.withFlags_eq _ _

/-- Four frames in which the flags change all the time, and once the alert on screen. -/
def blinking : List Call :=
  [({ controls := { engageable := true } }, .empty),
    ({ alert := .waiting }, .waiting),
    ({ driverMonitoring := { active := true } }, .empty),
    ({ controls := { engageable := true } }, .empty)]

/-- Another run, of one frame like the last of those but for its raw alert. -/
def alone : List Call :=
  [({ controls := { engageable := true }, alert := .waiting }, .empty)]

/-- The last of the four frames has the flags of the one before, and all else from itself. -/
theorem throttle_law_blinking :
    blinking.length < 2 ^ 64 ∧ (run 2 (blinking.take 4)).deriver.frame.toNat = 4 ∧
      ∃ v v', (run 2 blinking).values[3]? = some v ∧ (run 7 alone).values[0]? = some v' ∧
        v.engageable = false ∧ v.driverMonitored = true ∧ v'.withFlags {} = v.withFlags {} := by
  have hlen : blinking.length < 2 ^ 64 := by decide
  obtain ⟨hframe, v, look, hv, hlook, he, hd, hother⟩ :=
    (throttle_law 2 blinking hlen).2 3 ({ controls := { engageable := true } }, .empty) rfl
  obtain rfl := Option.some.inj hlook
  exact ⟨hlen, hframe, v, _, hv, rfl, he, hd, hother 7 alone 0 _ _ rfl rfl ⟨rfl, rfl⟩⟩

end HudDeriver

end DriveOverlay
