import Zbierak.Validation
import Zbierak.Lib.Civil

/-!
# The window of accepted timestamps

A timestamp is tested by the year that is written in it, whatever its offset. The
window is one of local times: an instant within a day of either end is accepted with
some offsets and refused with others.
-/
namespace Zbierak.Timestamps

open Civil

/-- The date and time as written. -/
def localTime (parsed : OffsetDateTime) : DateTime :=
  ⟨parsed.year, parsed.month, parsed.day, parsed.hour, parsed.minute, parsed.second,
    parsed.nanosecond⟩

def offset (parsed : OffsetDateTime) : Int := parsed.offsetSeconds * 10 ^ 9

/-- The instant, as the date and time it has in UTC. -/
def instant (parsed : OffsetDateTime) : Int := (localTime parsed).nanos - offset parsed

/-- 2000-01-01T00:00:00 and 2101-01-01T00:00:00. -/
def windowStart : Int := (yearStart 2000).nanos

def windowEnd : Int := (yearStart 2101).nanos

def InWindow (moment : Int) : Prop := windowStart ≤ moment ∧ moment < windowEnd

instance (moment : Int) : Decidable (InWindow moment) := inferInstanceAs (Decidable (_ ∧ _))

/-- Parsing yields a date and time of the calendar, with an offset of less than a day. -/
structure ReadsCivil (parse : String → Option OffsetDateTime) : Prop where
  valid : ∀ s parsed, parse s = some parsed → (localTime parsed).Valid
  offset : ∀ s parsed, parse s = some parsed →
    -86400 < parsed.offsetSeconds ∧ parsed.offsetSeconds < 86400

def Accepts (parse : String → Option OffsetDateTime) (field s : String) : Prop :=
  validateTimestamp parse field s = .ok ()

section

variable {parse : String → Option OffsetDateTime} {field s : String} {p : OffsetDateTime}

/-- A timestamp is accepted when its local time is within the window. -/
theorem accepts_iff (h : ReadsCivil parse) (hs : parse s = some p) :
    Accepts parse field s ↔ InWindow (instant p + offset p) := by
  have hvalid := h.valid s p hs
  have hlocal : instant p + offset p = (localTime p).nanos := by rw [instant]; omega
  have hstart : windowStart ≤ (localTime p).nanos ↔ 2000 ≤ p.year :=
    (hvalid.le_year_iff 2000).symm
  have hend : windowEnd ≤ (localTime p).nanos ↔ 2101 ≤ p.year := (hvalid.le_year_iff 2101).symm
  rw [Accepts, validateTimestamp_ok, hlocal, InWindow, hstart]
  simp only [minTimestampYear, maxTimestampYear, hs, Option.some.injEq]
  constructor
  · rintro ⟨parsed, rfl, hlow, hhigh⟩
    exact ⟨hlow, by omega⟩
  · rintro ⟨hlow, hhigh⟩
    exact ⟨p, rfl, hlow, by omega⟩

/-- At least a day inside or outside the window. -/
def Clear (moment : Int) : Prop :=
  ∀ boundary ∈ [windowStart, windowEnd],
    moment + nanosPerDay ≤ boundary ∨ boundary + nanosPerDay ≤ moment

/-- Far from the ends of the window no offset matters. -/
theorem inWindow_add_offset (h : ReadsCivil parse) (hs : parse s = some p)
    (hclear : Clear (instant p)) : InWindow (instant p + offset p) ↔ InWindow (instant p) := by
  obtain ⟨hlow, hhigh⟩ := h.offset s p hs
  have hstart := hclear windowStart (by simp)
  have hend := hclear windowEnd (by simp)
  rw [InWindow, InWindow, offset]
  rw [nanosPerDay] at hstart hend
  omega

end

/-- Which timestamps are accepted depends on the local time that is written: those
with a local time in the window. With equal offsets, and far from the ends of the
window with any offsets, it depends on the instant alone. -/
theorem acceptance_by_local_time (parse : String → Option OffsetDateTime) (h : ReadsCivil parse)
    (field : String) :
    (∀ s, Accepts parse field s ↔ ∃ p, parse s = some p ∧ InWindow (instant p + offset p)) ∧
    (∀ s t p q, parse s = some p → parse t = some q → instant p = instant q →
      offset p = offset q ∨ Clear (instant p) → (Accepts parse field s ↔ Accepts parse field t)) ∧
    (∀ s p, parse s = some p → Clear (instant p) →
      (Accepts parse field s ↔ InWindow (instant p))) := by
  have hclear : ∀ s p, parse s = some p → Clear (instant p) →
      (Accepts parse field s ↔ InWindow (instant p)) := fun s p hs hfar =>
    (accepts_iff h hs).trans (inWindow_add_offset h hs hfar)
  refine ⟨fun s => ?_, fun s t p q hs ht hinstant hcase => ?_, hclear⟩
  · constructor
    · intro haccepts
      obtain ⟨p, hs, -⟩ := validateTimestamp_ok.mp haccepts
      exact ⟨p, hs, (accepts_iff h hs).mp haccepts⟩
    · rintro ⟨p, hs, hwindow⟩
      exact (accepts_iff h hs).mpr hwindow
  · rcases hcase with hoffset | hfar
    · rw [accepts_iff h hs, accepts_iff h ht, hinstant, hoffset]
    · rw [hclear s p hs hfar, hclear t q ht (hinstant ▸ hfar), hinstant]

namespace Sample

/-- Half an hour before the end of the window, in UTC and an hour east of it. -/
def inUtc : OffsetDateTime := ⟨2100, 12, 31, 23, 30, 0, 0, 0⟩

def eastOfUtc : OffsetDateTime := ⟨2101, 1, 1, 0, 30, 0, 0, 3600⟩

def parse (s : String) : Option OffsetDateTime :=
  if s = "2100-12-31T23:30:00Z" then some inUtc
  else if s = "2101-01-01T00:30:00+01:00" then some eastOfUtc else none

theorem parse_cases {s : String} {parsed : OffsetDateTime} (h : parse s = some parsed) :
    parsed = inUtc ∨ parsed = eastOfUtc := by
  unfold parse at h
  split at h
  · exact .inl (Option.some.inj h).symm
  · split at h
    · exact .inr (Option.some.inj h).symm
    · cases h

theorem readsCivil_parse : ReadsCivil parse where
  valid s parsed h := by
    rcases parse_cases h with rfl | rfl <;>
      exact ⟨by decide, by decide, by decide, by decide, by decide, by decide⟩
  offset s parsed h := by
    rcases parse_cases h with rfl | rfl <;> decide

end Sample

theorem acceptance_by_local_time_utc :
    Accepts Sample.parse "timestamp" "2100-12-31T23:30:00Z" :=
  ((acceptance_by_local_time Sample.parse Sample.readsCivil_parse "timestamp").1
    "2100-12-31T23:30:00Z").mpr ⟨Sample.inUtc, by decide, by decide⟩

/-- Acceptance by the instant alone: equal instants are treated alike, and the
accepted ones are those in the window. -/
def InstantDecides (parse : String → Option OffsetDateTime) (field : String) : Prop :=
  (∀ s t p q, Text.byteLen s ≤ 64 → Text.byteLen t ≤ 64 → parse s = some p → parse t = some q →
    instant p = instant q → (Accepts parse field s ↔ Accepts parse field t)) ∧
  ∀ s, Text.byteLen s ≤ 64 →
    (Accepts parse field s ↔ ∃ p, parse s = some p ∧ InWindow (instant p))

/-- One instant, accepted in UTC and refused an hour east of it. -/
theorem offset_decides : ¬ ∀ parse, ReadsCivil parse → ∀ field, InstantDecides parse field := by
  intro h
  have hsame := (h Sample.parse Sample.readsCivil_parse "timestamp").1 "2100-12-31T23:30:00Z"
    "2101-01-01T00:30:00+01:00" Sample.inUtc Sample.eastOfUtc (by decide) (by decide) (by decide)
    (by decide) (by decide)
  have hutc : Accepts Sample.parse "timestamp" "2100-12-31T23:30:00Z" :=
    (accepts_iff (p := Sample.inUtc) Sample.readsCivil_parse (by decide)).mpr (by decide)
  have heast : ¬ Accepts Sample.parse "timestamp" "2101-01-01T00:30:00+01:00" := by
    rw [accepts_iff (p := Sample.eastOfUtc) Sample.readsCivil_parse (by decide)]
    decide
  exact heast (hsame.mp hutc)

end Zbierak.Timestamps
