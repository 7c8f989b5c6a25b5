import Zbierak.Lib.Window

/-!
# A failure limiter with a lock-out

Attempts are admitted, tried and counted in separate steps. The `limit`-th
counted failure of a series locks the limiter for `span`. As long as every
admission leaves room for all the attempts under way, no half-open window of
length `span` sees more than `limit` failures.
-/
namespace Limiter

/-- Failures counted in the current series, the end of the last lock, the
attempts that are admitted but not tried, those that failed but are not counted
yet, and the times of all failures. -/
structure State where
  clock : Int
  counted : Nat
  lockedUntil : Option Int
  waiting : Nat
  failed : Nat
  log : List Int

def State.Unlocked (s : State) : Prop := ∀ until_ ∈ s.lockedUntil, until_ ≤ s.clock

/-- One more failure of the series is counted. -/
def State.count (limit : Nat) (span : Int) (s : State) : State :=
  if s.counted + 1 < limit then { s with counted := s.counted + 1, lockedUntil := none }
  else { s with counted := 0, lockedUntil := some (s.clock + span) }

inductive Step (limit : Nat) (span : Int) : State → State → Prop where
  | idle (s : State) : Step limit span s s
  | tick (s : State) (seconds : Nat) : Step limit span s { s with clock := s.clock + seconds }
  | enter (s : State) (hfree : s.Unlocked) (hroom : s.counted + (s.waiting + s.failed) < limit) :
      Step limit span s { s with waiting := s.waiting + 1 }
  | leave (s : State) (waiting : Nat) (hwaiting : s.waiting = waiting + 1) :
      Step limit span s { s with waiting }
  | fail (s : State) (waiting : Nat) (logged : List Int) (hwaiting : s.waiting = waiting + 1)
      (hlogged : logged = [] ∨ logged = [s.clock]) :
      Step limit span s { s with waiting, failed := s.failed + 1, log := s.log ++ logged }
  | count (s : State) (waiting failed : Nat) (hwaiting : waiting ≤ s.waiting)
      (hfailed : failed ≤ s.failed) (hone : waiting + failed + 1 = s.waiting + s.failed) :
      Step limit span s (({ s with waiting, failed }).count limit span)

/-- The log is a past that meets the bound and the burst of the current series,
a whole span later. -/
structure Series (limit : Nat) (span : Int) (s : State) (past burst : List Int) (since : Int) :
    Prop where
  log : s.log = past ++ burst
  bounded : Window.AtMost limit span past
  before : ∀ t ∈ past, t + span ≤ since
  after : ∀ t ∈ burst, since ≤ t
  elapsed : ∀ t ∈ s.log, t ≤ s.clock
  counted : burst.length ≤ s.counted + s.failed
  room : burst.length + s.waiting ≤ limit
  limited : 0 < s.waiting + s.failed → s.counted + (s.waiting + s.failed) ≤ limit
  free : 0 < s.waiting + s.failed → s.Unlocked
  start : since ≤ s.clock ∨ ∃ until_ ∈ s.lockedUntil, since ≤ until_

def Inv (limit : Nat) (span : Int) (s : State) : Prop :=
  ∃ past burst since, Series limit span s past burst since

variable {limit : Nat} {span : Int} {s s' : State}

theorem inv_start (hwaiting : s.waiting = 0) (hfailed : s.failed = 0) (hlog : s.log = []) :
    Inv limit span s := by
  refine ⟨[], [], s.clock, ?_⟩
  constructor <;> simp [hwaiting, hfailed, hlog, Window.atMost_nil]

theorem Inv.atMost (h : Inv limit span s) : Window.AtMost limit span s.log := by
  obtain ⟨past, burst, since, h⟩ := h
  rw [h.log]
  exact h.bounded.append (by have := h.room; omega) h.before h.after

theorem Inv.unlocked (h : Inv limit span s) (hopen : 0 < s.waiting + s.failed) : s.Unlocked := by
  obtain ⟨past, burst, since, h⟩ := h
  exact h.free hopen

namespace Series

variable {past burst : List Int} {since : Int}

theorem since_le (h : Series limit span s past burst since) (hfree : s.Unlocked) :
    since ≤ s.clock := by
  rcases h.start with h | ⟨until_, hmem, h⟩
  · exact h
  · have := hfree until_ hmem
    omega

theorem tick (h : Series limit span s past burst since) (seconds : Nat) :
    Series limit span { s with clock := s.clock + seconds } past burst since where
  log := h.log
  bounded := h.bounded
  before := h.before
  after := h.after
  elapsed t ht := by
    have := h.elapsed t ht
    dsimp only
    omega
  counted := h.counted
  room := h.room
  limited := h.limited
  free hopen until_ hmem := by
    have := h.free hopen until_ hmem
    dsimp only
    omega
  start := h.start.imp_left fun h => by dsimp only; omega

theorem enter (h : Series limit span s past burst since) (hfree : s.Unlocked)
    (hroom : s.counted + (s.waiting + s.failed) < limit) :
    Series limit span { s with waiting := s.waiting + 1 } past burst since where
  log := h.log
  bounded := h.bounded
  before := h.before
  after := h.after
  elapsed := h.elapsed
  counted := h.counted
  room := by
    have := h.counted
    dsimp only
    omega
  limited _ := by
    dsimp only
    omega
  free _ := hfree
  start := h.start

theorem leave (h : Series limit span s past burst since) {waiting : Nat}
    (hwaiting : s.waiting = waiting + 1) : Series limit span { s with waiting } past burst since where
  log := h.log
  bounded := h.bounded
  before := h.before
  after := h.after
  elapsed := h.elapsed
  counted := h.counted
  room := by
    have := h.room
    dsimp only
    omega
  limited hopen := by
    have := h.limited (by omega)
    dsimp only
    omega
  free _ := h.free (by omega)
  start := h.start

/-- A failure is logged in the burst of the series. -/
theorem fail (h : Series limit span s past burst since) {waiting : Nat} {logged : List Int}
    (hwaiting : s.waiting = waiting + 1) (hlogged : logged = [] ∨ logged = [s.clock]) :
    Series limit span { s with waiting, failed := s.failed + 1, log := s.log ++ logged } past
      (burst ++ logged) since where
  log := by simp [h.log]
  bounded := h.bounded
  before := h.before
  after t ht := by
    rcases List.mem_append.mp ht with ht | ht
    · exact h.after t ht
    · have := h.since_le (h.free (by omega))
      rcases hlogged with rfl | rfl
      · cases ht
      · obtain rfl := List.mem_singleton.mp ht
        exact this
  elapsed t ht := by
    rcases List.mem_append.mp ht with ht | ht
    · exact h.elapsed t ht
    · rcases hlogged with rfl | rfl
      · cases ht
      · exact Int.le_of_eq (List.mem_singleton.mp ht)
  counted := by
    have := h.counted
    rcases hlogged with rfl | rfl <;>
      simp only [List.length_append, List.length_cons, List.length_nil] <;> omega
  room := by
    have := h.room
    rcases hlogged with rfl | rfl <;>
      simp only [List.length_append, List.length_cons, List.length_nil] <;> omega
  limited _ := by
    have := h.limited (by omega)
    dsimp only
    omega
  free _ := h.free (by omega)
  start := h.start

/-- A counted failure goes on with the series, or ends it with a lock: then no
other attempt is under way. -/
theorem count (h : Series limit span s past burst since) {waiting failed : Nat}
    (hwaiting : waiting ≤ s.waiting) (hfailed : failed ≤ s.failed)
    (hone : waiting + failed + 1 = s.waiting + s.failed) :
    Inv limit span (({ s with waiting, failed }).count limit span) := by
  have hlimited := h.limited (by omega)
  have hcounted := h.counted
  have hroom := h.room
  unfold State.count
  dsimp only
  split
  · refine ⟨past, burst, since, h.log, h.bounded, h.before, h.after, h.elapsed, ?_, ?_, ?_, ?_, ?_⟩
    · dsimp only; omega
    · dsimp only; omega
    · dsimp only; omega
    · rintro - until_ ⟨⟩
    · exact .inl (h.since_le (h.free (by omega)))
  · refine ⟨s.log, [], s.clock + span, ?_, Inv.atMost ⟨past, burst, since, h⟩, ?_, ?_, h.elapsed, ?_,
      ?_, ?_, ?_, ?_⟩
    · simp
    · intro t ht
      have := h.elapsed t ht
      omega
    · rintro t ⟨⟩
    · simp
    · simp only [List.length_nil]; omega
    · intro hopen; dsimp only at hopen; omega
    · intro hopen; dsimp only at hopen; omega
    · exact .inr ⟨_, rfl, Int.le_refl _⟩

end Series

theorem Inv.step (h : Inv limit span s) (hs : Step limit span s s') : Inv limit span s' := by
  obtain ⟨past, burst, since, h⟩ := h
  cases hs with
  | idle => exact ⟨past, burst, since, h⟩
  | tick seconds => exact ⟨past, burst, since, h.tick seconds⟩
  | enter hfree hroom => exact ⟨past, burst, since, h.enter hfree hroom⟩
  | leave waiting hwaiting => exact ⟨past, burst, since, h.leave hwaiting⟩
  | fail waiting logged hwaiting hlogged =>
    exact ⟨past, burst ++ logged, since, h.fail hwaiting hlogged⟩
  | count waiting failed hwaiting hfailed hone => exact h.count hwaiting hfailed hone

end Limiter
