import Mathlib.Order.Basic
import Mathlib.Data.Int.Order.Basic
import Mathlib.Tactic.Common

/-!
# Instants, time zones and aware datetimes

Instants and wall-clock readings are microseconds counted from 0001-01-01T00:00:00,
which is a Monday. A time zone is a UTC-offset function together with the inverse
that PEP 495 prescribes: the offset of a wall-clock reading and its fold. An aware
datetime is a wall-clock reading inside the years 1 to 9999; arithmetic moves the
wall clock and is undefined exactly where Python raises `OverflowError`.
-/

namespace Orchestrator.Base

/-- One second in microseconds. -/
def second : Int := 1000000

/-- One minute in microseconds. -/
def minute : Int := 60 * second

/-- One hour in microseconds. -/
def hour : Int := 60 * minute

/-- One day in microseconds. -/
def day : Int := 24 * hour

/-- First wall-clock reading past `datetime.max`, the end of 9999-12-31. -/
def wallEnd : Int := 3652059 * day

/-- A time zone: the offset at each instant, whether the instant is the second
occurrence of its wall-clock reading, and the offset given to a reading and fold. -/
structure TimeZone where
  utcoffset : Int → Int
  fold : Int → Bool
  wallOffset : Int → Bool → Int
  utcoffset_lt : ∀ u, -day < utcoffset u ∧ utcoffset u < day
  wallOffset_lt : ∀ w f, -day < wallOffset w f ∧ wallOffset w f < day
  wallOffset_instant : ∀ u, wallOffset (u + utcoffset u) (fold u) = utcoffset u
  wallOffset_unique : ∀ u, (∀ v, v + utcoffset v = u + utcoffset u → v = u) →
    ∀ f, wallOffset (u + utcoffset u) f = utcoffset u

/-- The offset of UTC is shorter than a day. -/
theorem utcOffset_mem : -day < (0 : Int) ∧ (0 : Int) < day := by decide

namespace TimeZone

/-- The wall-clock reading of an instant. -/
def localWall (z : TimeZone) (u : Int) : Int := u + z.utcoffset u

/-- Transitions neither skip nor repeat a wall-clock reading whose time of day lies
in the half-open window. -/
def RegularOn (z : TimeZone) (lo hi : Int) : Prop :=
  ∀ w, lo ≤ w % day → w % day < hi → ∃ u, z.localWall u = w ∧ ∀ v, z.localWall v = w → v = u

/-- A zone whose offset never changes. -/
def fixed (δ : Int) (h : -day < δ ∧ δ < day) : TimeZone where
  utcoffset _ := δ
  fold _ := false
  wallOffset _ _ := δ
  utcoffset_lt _ := h
  wallOffset_lt _ _ := h
  wallOffset_instant _ := rfl
  wallOffset_unique _ _ _ := rfl

/-- On a regular window the offset of a wall-clock reading inverts the offset of the
instant, whichever fold it carries. -/
theorem localWall_sub_wallOffset {z : TimeZone} {lo hi w : Int} (hz : z.RegularOn lo hi)
    (hlo : lo ≤ w % day) (hhi : w % day < hi) (f : Bool) :
    z.localWall (w - z.wallOffset w f) = w := by
  obtain ⟨u, rfl, hu⟩ := hz w hlo hhi
  have ho : z.wallOffset (z.localWall u) f = z.utcoffset u := z.wallOffset_unique u hu f
  have he : z.localWall u - z.wallOffset (z.localWall u) f = u := by
    rw [ho, localWall]
    omega
  rw [he]

end TimeZone

/-- The `tzinfo` of an aware datetime: a fixed offset or a named zone. -/
inductive TzInfo where
  | offset (δ : Int) (h : -day < δ ∧ δ < day)
  | zone (key : String) (z : TimeZone)

/-- Offset of a wall-clock reading and fold. -/
def TzInfo.utcoffset : TzInfo → Int → Bool → Int
  | .offset δ _, _, _ => δ
  | .zone _ z, w, f => z.wallOffset w f

/-- An aware datetime in the years 1 to 9999. -/
structure Datetime where
  wall : Int
  fold : Bool
  tz : TzInfo
  wall_mem : 0 ≤ wall ∧ wall < wallEnd

/-- A reading or an instant in the years 1 to 9999. -/
def InRange (w : Int) : Prop := 0 ≤ w ∧ w < wallEnd

instance (w : Int) : Decidable (InRange w) := inferInstanceAs (Decidable (_ ∧ _))

namespace Datetime

/-- The UTC offset of the datetime. -/
def utcoffset (d : Datetime) : Int := d.tz.utcoffset d.wall d.fold

/-- The instant that the datetime denotes. -/
def instant (d : Datetime) : Int := d.wall - d.utcoffset

/-- A datetime from its parts; undefined where Python raises `OverflowError`. -/
def ofWall (w : Int) (f : Bool) (tz : TzInfo) : Option Datetime :=
  if h : 0 ≤ w ∧ w < wallEnd then some ⟨w, f, tz, h⟩ else none

/-- `d + timedelta`: wall-clock arithmetic that keeps `tzinfo` and clears the fold. -/
def add (d : Datetime) (δ : Int) : Option Datetime := ofWall (d.wall + δ) false d.tz

/-- `d.astimezone(ZoneInfo(key))`. Conversion to the datetime's own zone is the
identity; otherwise both the UTC reading and the local one must be in range. -/
def astimezone (d : Datetime) (key : String) (z : TimeZone) : Option Datetime :=
  let convert :=
    if 0 ≤ d.instant ∧ d.instant < wallEnd then
      ofWall (z.localWall d.instant) (z.fold d.instant) (.zone key z)
    else none
  match d.tz with
  | .offset _ _ => convert
  | .zone own _ => if own = key then some d else convert

/-- The instant as a `timestamptz` value, which must be in range as well. -/
def timestamptz (d : Datetime) : Option Int :=
  if 0 ≤ d.instant ∧ d.instant < wallEnd then some d.instant else none

/-- Time of day of the wall clock. -/
def timeOfDay (d : Datetime) : Int := d.wall % day

/-- Days from 0001-01-01 to the datetime's date. -/
def date (d : Datetime) : Int := d.wall / day

/-- `datetime.combine(date, time, tzinfo=ZoneInfo(key))`, with fold zero. -/
def combine (date time : Int) (key : String) (z : TimeZone) : Option Datetime :=
  ofWall (date * day + time) false (.zone key z)

private theorem replaceTime_mem (d : Datetime) (t : Int) (ht : 0 ≤ t ∧ t < day) :
    0 ≤ d.wall / day * day + t ∧ d.wall / day * day + t < wallEnd := by
  obtain ⟨h0, h1⟩ := d.wall_mem
  simp only [wallEnd, day, hour, minute, second] at h1 ht ⊢
  omega

/-- `d.replace(hour=.., minute=.., second=.., microsecond=..)`: the same date, zone
and fold with another time of day. -/
def replaceTime (d : Datetime) (t : Int) (ht : 0 ≤ t ∧ t < day) : Datetime :=
  ⟨d.wall / day * day + t, d.fold, d.tz, replaceTime_mem d t ht⟩

/-- What `isoformat()` prints: the wall clock and its UTC offset. -/
structure Isoformat where
  wall : Int
  utcoffset : Int
  deriving DecidableEq, Repr

/-- The ISO rendering of the datetime. -/
def isoformat (d : Datetime) : Isoformat := ⟨d.wall, d.utcoffset⟩

/-- Construction succeeds exactly in the datetime range and keeps the parts. -/
theorem ofWall_eq_some {w : Int} {f : Bool} {tz : TzInfo} {d : Datetime}
    (h : ofWall w f tz = some d) : d.wall = w ∧ d.fold = f ∧ d.tz = tz := by
  unfold ofWall at h
  split at h
  · cases h
    exact ⟨rfl, rfl, rfl⟩
  · cases h

/-- A datetime whose reading is in range exists. -/
theorem ofWall_of_inRange {w : Int} (h : InRange w) (f : Bool) (tz : TzInfo) :
    ofWall w f tz = some ⟨w, f, tz, h⟩ := dif_pos h

/-- Only readings in range make datetimes. -/
theorem ofWall_isSome {w : Int} {f : Bool} {tz : TzInfo} :
    (ofWall w f tz).isSome = true ↔ InRange w := by
  unfold ofWall InRange
  split <;> simp_all

/-- Only instants in range are stored. -/
theorem timestamptz_isSome {d : Datetime} : d.timestamptz.isSome = true ↔ InRange d.instant := by
  unfold timestamptz InRange
  split <;> simp_all

/-- A stored timestamp is the instant itself. -/
theorem timestamptz_eq_some {d : Datetime} {u : Int} (h : d.timestamptz = some u) :
    u = d.instant := by
  unfold timestamptz at h
  split at h
  · exact (Option.some.inj h).symm
  · cases h

/-- Replacing the time of day sets it. -/
theorem timeOfDay_replaceTime (d : Datetime) (t : Int) (ht : 0 ≤ t ∧ t < day) :
    (d.replaceTime t ht).wall % day = t := by
  simp only [replaceTime, day, hour, minute, second] at ht ⊢
  omega

/-- A converted datetime is in the target zone. The wall clock is either the reading
of the same instant or, in the datetime's own zone, the one it had. -/
theorem astimezone_cases {d l : Datetime} {key : String} {z : TimeZone}
    (h : d.astimezone key z = some l) :
    (l = d ∧ ∃ own, d.tz = .zone key own) ∨
      (l.tz = .zone key z ∧ l.wall = z.localWall d.instant ∧ l.fold = z.fold d.instant) := by
  have hconv : (if 0 ≤ d.instant ∧ d.instant < wallEnd then
      ofWall (z.localWall d.instant) (z.fold d.instant) (.zone key z) else none) = some l →
      l.tz = .zone key z ∧ l.wall = z.localWall d.instant ∧ l.fold = z.fold d.instant := by
    intro hc
    split at hc
    · obtain ⟨hw, hf, ht⟩ := ofWall_eq_some hc
      exact ⟨ht, hw, hf⟩
    · cases hc
  unfold astimezone at h
  cases htz : d.tz with
  | offset δ hδ =>
    rw [htz] at h
    exact Or.inr (hconv h)
  | zone own zown =>
    rw [htz] at h
    dsimp only at h
    split at h
    · next he =>
      cases h
      exact Or.inl ⟨rfl, zown, by rw [he]⟩
    · exact Or.inr (hconv h)

end Datetime

/-- A datetime with a fixed offset is converted when its instant and its local reading are
in range. -/
theorem Datetime.astimezone_offset {d : Datetime} {δ : Int} {hδ : -day < δ ∧ δ < day}
    (htz : d.tz = .offset δ hδ) (key : String) (z : TimeZone) :
    d.astimezone key z = if InRange d.instant then
      ofWall (z.localWall d.instant) (z.fold d.instant) (.zone key z) else none := by
  unfold astimezone
  rw [htz]
  rfl

/-- A datetime of another zone is converted like one with a fixed offset. -/
theorem Datetime.astimezone_other {d : Datetime} {own key : String} {zown : TimeZone}
    (htz : d.tz = .zone own zown) (hne : own ≠ key) (z : TimeZone) :
    d.astimezone key z = if InRange d.instant then
      ofWall (z.localWall d.instant) (z.fold d.instant) (.zone key z) else none := by
  unfold astimezone
  rw [htz]
  exact if_neg hne

/-- A datetime of the zone itself is its own conversion. -/
theorem Datetime.astimezone_own {d : Datetime} {key : String} {own : TimeZone}
    (htz : d.tz = .zone key own) (z : TimeZone) : d.astimezone key z = some d := by
  unfold astimezone
  rw [htz]
  simp

/-- An aware datetime with a fixed UTC offset, the form in which a timestamp arrives
from outside. -/
structure OffsetDatetime where
  wall : Int
  offset : Int
  offset_lt : -day < offset ∧ offset < day
  wall_mem : 0 ≤ wall ∧ wall < wallEnd

/-- The datetime itself. -/
def OffsetDatetime.toDatetime (d : OffsetDatetime) : Datetime :=
  ⟨d.wall, false, .offset d.offset d.offset_lt, d.wall_mem⟩

/-- At a fixed offset, moving the wall clock moves the instant. -/
theorem OffsetDatetime.add_spec {at' : OffsetDatetime} {δ : Int} {e : Datetime}
    (h : at'.toDatetime.add δ = some e) :
    e.tz = .offset at'.offset at'.offset_lt ∧ e.instant = at'.toDatetime.instant + δ := by
  obtain ⟨hwall, -, htz⟩ := Datetime.ofWall_eq_some h
  have htz : e.tz = .offset at'.offset at'.offset_lt := htz
  refine ⟨htz, ?_⟩
  simp only [Datetime.instant, Datetime.utcoffset, htz, hwall, TzInfo.utcoffset,
    OffsetDatetime.toDatetime]
  omega

/-- Moving the wall clock succeeds exactly inside the datetime range. -/
theorem OffsetDatetime.add_isSome {at' : OffsetDatetime} {δ : Int} :
    (at'.toDatetime.add δ).isSome = true ↔ InRange (at'.wall + δ) := Datetime.ofWall_isSome

/-! ### Forms of one instant -/

/-- Two datetimes that denote one instant and have one local time in every zone. -/
structure Datetime.SameTime (d d' : Datetime) : Prop where
  instant : d.instant = d'.instant
  astimezone : ∀ key z, d.astimezone key z = d'.astimezone key z

/-- A datetime is a form of its own instant. -/
theorem Datetime.SameTime.refl (d : Datetime) : d.SameTime d := ⟨rfl, fun _ _ => rfl⟩

/-- Two fixed offsets are two forms of an instant. -/
theorem Datetime.sameTime_of_offset {d d' : Datetime} {δ δ' : Int} {hδ : -day < δ ∧ δ < day}
    {hδ' : -day < δ' ∧ δ' < day} (htz : d.tz = .offset δ hδ) (htz' : d'.tz = .offset δ' hδ')
    (h : d.instant = d'.instant) : d.SameTime d' := by
  refine ⟨h, fun key z => ?_⟩
  rw [astimezone_offset htz, astimezone_offset htz', h]

/-- One instant is stored for both. -/
theorem Datetime.SameTime.timestamptz {d d' : Datetime} (h : d.SameTime d') :
    d.timestamptz = d'.timestamptz := by
  unfold Datetime.timestamptz
  rw [h.instant]

/-- The same time later, two forms of an instant are still forms of one. -/
theorem OffsetDatetime.sameTime_add {a b : OffsetDatetime}
    (h : a.toDatetime.instant = b.toDatetime.instant) {δ : Int} {d e : Datetime}
    (hd : a.toDatetime.add δ = some d) (he : b.toDatetime.add δ = some e) : d.SameTime e := by
  obtain ⟨hdtz, hdi⟩ := OffsetDatetime.add_spec hd
  obtain ⟨hetz, hei⟩ := OffsetDatetime.add_spec he
  refine Datetime.sameTime_of_offset hdtz hetz ?_
  rw [hdi, hei, h]

/-- Day of the week of a date, with Monday as zero. -/
def weekday (date : Int) : Int := date % 7

/-- Local reading of an instant lies in the window of times of day. -/
def InWindow (lo hi : Int) (z : TimeZone) (u : Int) : Prop :=
  lo ≤ z.localWall u % day ∧ z.localWall u % day < hi

instance (lo hi : Int) (z : TimeZone) (u : Int) : Decidable (InWindow lo hi z u) :=
  inferInstanceAs (Decidable (_ ∧ _))

/-- A datetime of a zone denotes an instant in the window as soon as its wall clock
is in the window and the zone is regular there. -/
theorem inWindow_of_wall {d : Datetime} {key : String} {z : TimeZone} {lo hi : Int}
    (hz : z.RegularOn lo hi) (htz : d.tz = .zone key z)
    (hlo : lo ≤ d.wall % day) (hhi : d.wall % day < hi) : InWindow lo hi z d.instant := by
  have hi' : d.instant = d.wall - z.wallOffset d.wall d.fold := by
    rw [Datetime.instant, Datetime.utcoffset, htz, TzInfo.utcoffset]
  rw [InWindow, hi', TimeZone.localWall_sub_wallOffset hz hlo hhi]
  exact ⟨hlo, hhi⟩

end Orchestrator.Base
