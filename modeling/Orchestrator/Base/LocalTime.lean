import Mathlib.Data.Nat.Find
import Orchestrator.Base.Civil

/-!
# Local clocks across transitions

A local clock moves forward by one between consecutive instants, except at a transition,
where it jumps. Where no jump skips or repeats a reading of some window of times of day,
the clock passes each reading of the window once, from below to above, and so orders the
instants around it.
-/

namespace Orchestrator.Base

/-- The time of day of a reading lies in the half-open window. -/
def OfWindow (lo hi w : Int) : Prop := lo ≤ w % day ∧ w % day < hi

instance (lo hi w : Int) : Decidable (OfWindow lo hi w) := inferInstanceAs (Decidable (_ ∧ _))

namespace TimeZone

/-- No transition of the zone skips or repeats a reading of the window. -/
structure SteadyOn (z : TimeZone) (lo hi : Int) : Prop where
  notSkipped : ∀ u w, OfWindow lo hi w → ¬(z.localWall u < w ∧ w < z.localWall (u + 1))
  notRepeated : ∀ u w, OfWindow lo hi w → ¬(z.localWall (u + 1) ≤ w ∧ w ≤ z.localWall u)

/-- A fixed zone has no transitions. -/
theorem fixed_steadyOn (δ : Int) (h : -day < δ ∧ δ < day) (lo hi : Int) :
    (fixed δ h).SteadyOn lo hi := by
  constructor
  · intro u w _ hskip
    simp only [localWall, fixed] at hskip
    omega
  · intro u w _ hrepeat
    simp only [localWall, fixed] at hrepeat
    omega

section

variable {z : TimeZone} {lo hi : Int}

/-- Once the clock has reached a reading of the window it stays past it. -/
theorem SteadyOn.localWall_lt (hz : z.SteadyOn lo hi) {w u v : Int} (hw : OfWindow lo hi w)
    (hu : w ≤ z.localWall u) (huv : u < v) : w < z.localWall v := by
  have hstep (n : Nat) : w < z.localWall (u + (n + 1)) := by
    induction n with
    | zero =>
      have hnot := hz.notRepeated u w hw
      show w < z.localWall (u + (0 + 1))
      rw [Int.zero_add]
      omega
    | succ n ih =>
      have hnot := hz.notRepeated (u + (n + 1)) w hw
      rw [Int.add_assoc] at hnot
      push_cast
      omega
  have hn := hstep (v - u - 1).toNat
  have hv : u + (((v - u - 1).toNat : Int) + 1) = v := by omega
  rwa [hv] at hn

/-- Before its instant the clock has not reached a reading of the window. -/
theorem SteadyOn.localWall_lt_of_lt (hz : z.SteadyOn lo hi) {u v : Int}
    (hv : OfWindow lo hi (z.localWall v)) (huv : u < v) : z.localWall u < z.localWall v := by
  by_contra hnot
  have hpast := hz.localWall_lt hv (Int.not_lt.mp hnot) huv
  omega

/-- A reading of the window belongs to a later instant than the readings below it. -/
theorem SteadyOn.lt_of_localWall_lt (hz : z.SteadyOn lo hi) {u v : Int}
    (hv : OfWindow lo hi (z.localWall v)) (h : z.localWall u < z.localWall v) : u < v := by
  rcases Int.lt_trichotomy u v with huv | rfl | hvu
  · exact huv
  · omega
  · have hpast := hz.localWall_lt hv (Int.le_refl _) hvu
    omega

/-- Every reading of the window is shown. -/
theorem SteadyOn.exists_instant (hz : z.SteadyOn lo hi) {w : Int} (hw : OfWindow lo hi w) :
    ∃ u, z.localWall u = w := by
  have hlate : ∃ n : Nat, w ≤ z.localWall (w - day + n) := by
    refine ⟨(2 * day).toNat, ?_⟩
    have hoffset := z.utcoffset_lt (w - day + ((2 * day).toNat : Int))
    have hdays : ((2 * day).toNat : Int) = 2 * day := by decide
    rw [localWall]
    omega
  cases hn : Nat.find hlate with
  | zero =>
    -- a day before its reading the clock cannot have reached it
    have hfirst := Nat.find_spec hlate
    have hoffset := z.utcoffset_lt (w - day + ((0 : Nat) : Int))
    rw [hn, localWall] at hfirst
    omega
  | succ n =>
    have hreached := Nat.find_spec hlate
    have hbefore : ¬w ≤ z.localWall (w - day + n) := Nat.find_min hlate (by omega)
    rw [hn] at hreached
    push_cast at hreached
    have hnot := hz.notSkipped (w - day + n) w hw
    rw [Int.add_assoc] at hnot
    exact ⟨w - day + (n + 1), by omega⟩

/-- Where transitions neither skip nor repeat readings, each is shown at one instant. -/
theorem SteadyOn.regularOn (hz : z.SteadyOn lo hi) : z.RegularOn lo hi := by
  intro w hlo hhi
  obtain ⟨u, hu⟩ := hz.exists_instant ⟨hlo, hhi⟩
  refine ⟨u, hu, fun v hv => ?_⟩
  have hw : OfWindow lo hi w := ⟨hlo, hhi⟩
  rcases Int.lt_trichotomy v u with hvu | rfl | huv
  · have hbefore := hz.localWall_lt_of_lt (hu ▸ hw) hvu
    omega
  · rfl
  · have hafter := hz.localWall_lt hw (Int.le_of_eq hu.symm) huv
    omega

/-- Up to a reading of the window no instant is in the window when no reading of it lies
in between. -/
theorem SteadyOn.not_inWindow (hz : z.SteadyOn lo hi) {u₀ u₁ : Int}
    (h₁ : OfWindow lo hi (z.localWall u₁))
    (hgap : ∀ w, OfWindow lo hi w → z.localWall u₀ ≤ w → z.localWall u₁ ≤ w) {u : Int}
    (hu₀ : u₀ ≤ u) (hu₁ : u < u₁) : ¬InWindow lo hi z u := by
  intro hu
  have hw : OfWindow lo hi (z.localWall u) := hu
  have hbelow : z.localWall u < z.localWall u₁ := hz.localWall_lt_of_lt h₁ hu₁
  have habove : z.localWall u₀ ≤ z.localWall u := by
    by_contra hnot
    have hback : u < u₀ := by
      rcases Int.lt_or_eq_of_le hu₀ with hlt | rfl
      · have hpast := hz.localWall_lt_of_lt hw hlt
        omega
      · omega
    omega
  have hreached := hgap (z.localWall u) hw habove
  omega

end

end TimeZone

/-! ### Readings that the clock shows -/

namespace Datetime

/-- A datetime that names the zone is of that zone, and its reading is the one that the
zone's clock shows at its instant. Other datetimes need nothing. -/
def Shows (d : Datetime) (key : String) (z : TimeZone) : Prop :=
  ∀ own, d.tz = .zone key own → own = z ∧ z.localWall d.instant = d.wall

variable {d : Datetime} {key : String} {z : TimeZone}

/-- A datetime with a fixed offset names no zone. -/
theorem shows_of_offset {δ : Int} {hδ : -day < δ ∧ δ < day} (htz : d.tz = .offset δ hδ)
    (key : String) (z : TimeZone) : d.Shows key z := by
  intro own hown
  rw [htz] at hown
  cases hown

/-- A reading of a window that transitions leave alone is shown. -/
theorem shows_of_window {lo hi : Int} (hz : z.RegularOn lo hi) (htz : d.tz = .zone key z)
    (hw : OfWindow lo hi d.wall) : d.Shows key z := by
  intro own hown
  obtain rfl : z = own := (TzInfo.zone.inj (htz.symm.trans hown)).2
  refine ⟨rfl, ?_⟩
  rw [instant, utcoffset, htz]
  exact TimeZone.localWall_sub_wallOffset hz hw.1 hw.2 d.fold

/-- The conversion of a datetime that shows its reading is that reading. -/
theorem astimezone_shows (hs : d.Shows key z) {l : Datetime} (h : d.astimezone key z = some l) :
    l.tz = .zone key z ∧ l.wall = z.localWall d.instant := by
  rcases astimezone_cases h with ⟨rfl, own, hown⟩ | ⟨htz, hwall, -⟩
  · obtain ⟨rfl, hshown⟩ := hs own hown
    exact ⟨hown, hshown.symm⟩
  · exact ⟨htz, hwall⟩

/-- A datetime is converted when its instant and its local reading are in range. -/
theorem astimezone_of_inRange (hu : InRange d.instant) (hl : InRange (z.localWall d.instant)) :
    ∃ l, d.astimezone key z = some l := by
  have hconvert := ofWall_of_inRange hl (z.fold d.instant) (.zone key z)
  cases htz : d.tz with
  | offset δ hδ =>
    rw [astimezone_offset htz, if_pos hu, hconvert]
    exact ⟨_, rfl⟩
  | zone own zown =>
    by_cases hkey : own = key
    · subst hkey
      exact ⟨d, astimezone_own htz z⟩
    · rw [astimezone_other htz hkey, if_pos hu, hconvert]
      exact ⟨_, rfl⟩

end Datetime

/-! ### Away from the ends of the calendar -/

/-- Two weeks or more from the first and from the last day of the calendar. -/
def AwayFromEnds (d : Datetime) : Prop := 14 * day ≤ d.wall ∧ d.wall + 14 * day ≤ wallEnd

namespace Datetime

/-- A UTC offset is shorter than a day. -/
theorem utcoffset_lt (d : Datetime) : -day < d.utcoffset ∧ d.utcoffset < day := by
  unfold utcoffset
  cases d.tz with
  | offset δ hδ => exact hδ
  | zone own z => exact z.wallOffset_lt _ _

/-- A reading one day inside the calendar denotes an instant in range. -/
theorem instant_inRange {d : Datetime} (hlo : day ≤ d.wall) (hhi : d.wall + day ≤ wallEnd) :
    InRange d.instant := by
  have hoffset := d.utcoffset_lt
  unfold InRange instant
  omega

/-- A reading two days inside the calendar has a local time, which is less than two days
away on the wall. -/
theorem astimezone_of_margin {d : Datetime} (key : String) (z : TimeZone)
    (hlo : 2 * day ≤ d.wall) (hhi : d.wall + 2 * day ≤ wallEnd) :
    ∃ l, d.astimezone key z = some l ∧ d.wall - 2 * day < l.wall ∧ l.wall < d.wall + 2 * day := by
  have hday : (0 : Int) < day := by decide
  have hoffset := d.utcoffset_lt
  have hlocal := z.utcoffset_lt d.instant
  have hinstant : d.instant = d.wall - d.utcoffset := rfl
  have hwall : z.localWall d.instant = d.instant + z.utcoffset d.instant := rfl
  have hl : InRange (z.localWall d.instant) := by
    unfold InRange
    omega
  have hu : InRange d.instant := instant_inRange (by omega) (by omega)
  obtain ⟨l, hconvert⟩ : ∃ l, d.astimezone key z = some l := astimezone_of_inRange hu hl
  refine ⟨l, hconvert, ?_⟩
  rcases astimezone_cases hconvert with ⟨rfl, -⟩ | ⟨-, hread, -⟩
  · omega
  · omega

end Datetime

end Orchestrator.Base
