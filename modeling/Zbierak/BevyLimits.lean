import Zbierak.Bevy
import Zbierak.Lib.FixedWindow

/-!
# Rate cap and duplicate suppression

The cap is counted from the start of a window that is replaced when it is over,
so it holds over every span only where the logs of two windows keep apart. The
table of sent messages forgets them only when it is full.
-/
namespace Zbierak.Bevy

variable {config : ReportConfig} {p : Pipeline} {turn : Turn} {now : Nat}

/-- The clock does not go back from turn to turn. -/
def Monotone (turns : List Turn) : Prop := turns.Pairwise fun a b => a.now ≤ b.now

instance (turns : List Turn) : Decidable (Monotone turns) :=
  inferInstanceAs (Decidable (List.Pairwise _ _))

def instants (p : Pipeline) : List Int := p.sent.map fun sent => (sent.now : Int)

theorem elapsed_append {sent : List Sent} (h : ∀ z ∈ sent, z.now ≤ now) (message : String)
    (full : Bool) : ∀ z ∈ sent ++ [⟨now, message, full⟩], z.now ≤ now := by
  intro z hz
  rcases List.mem_append.mp hz with hz | hz
  · exact h z hz
  · rw [List.mem_singleton.mp hz]

theorem roll_open {state : ThrottleState} {start : Nat} (hstart : state.windowStart = some start)
    (hle : start ≤ now) (hlt : now < start + config.rateWindow) : state.roll config now = state := by
  refine if_pos ?_
  rw [hstart, Option.any_some, decide_eq_true_eq]
  omega

@[simp] theorem lastSent_roll (config : ReportConfig) (now : Nat) (state : ThrottleState) :
    (state.roll config now).lastSent = state.lastSent := by
  unfold ThrottleState.roll
  split <;> rfl

/-- Before the first log, and when the last window is over. -/
def Closed (config : ReportConfig) (now : Nat) (state : ThrottleState) : Prop :=
  ∀ start ∈ state.windowStart, start + config.rateWindow ≤ now

theorem roll_closed {state : ThrottleState} (h : Closed config now state) :
    state.roll config now =
      { state with windowStart := some now, sentInWindow := 0, droppedInWindow := 0 } := by
  refine if_neg fun hopen => ?_
  obtain ⟨start, hstart, hlt⟩ := (Option.any_eq_true _ _).mp hopen
  have := h start hstart
  simp only [decide_eq_true_eq] at hlt
  omega

/-- Instants of the logs that the client would take. -/
def offered (config : ReportConfig) (turns : List Turn) : List Nat :=
  (turns.filter fun turn => (turn.captureEvent (logEvent config turn.captured)).isOk).map Turn.now

/-- What turns in the window from `start`, with `count` captures in it already,
make of a pipeline. -/
structure Filled (config : ReportConfig) (start count : Nat) (turns : List Turn) (p q : Pipeline) :
    Prop where
  opened : q.state.windowStart = some start
  limited : count ≤ config.maxEventsPerWindow → q.state.sentInWindow ≤ config.maxEventsPerWindow
  adds : ∃ new : List Sent, q.sent = p.sent ++ new ∧
    (new.map Sent.now).Sublist (offered config turns) ∧ q.state.sentInWindow = count + new.length

theorem filled_processTurn {start count : Nat}
    (hstart : (p.state.roll config turn.now).windowStart = some start)
    (hcount : (p.state.roll config turn.now).sentInWindow = count) :
    Filled config start count [turn] p (processTurn config p turn) := by
  subst hcount
  rcases processTurn_cases config p turn with ⟨hpass, heq⟩ | ⟨-, dropped, heq⟩
  · rw [heq]
    refine ⟨hstart, fun _ => hpass.1, [_], rfl, ?_, rfl⟩
    simp [offered, hpass.2.2]
  · rw [heq]
    exact ⟨hstart, id, [], (List.append_nil _).symm, List.nil_sublist _, rfl⟩

theorem Filled.trans {start count : Nat} {turns turns' : List Turn} {q q' : Pipeline}
    (h : Filled config start count turns p q)
    (h' : Filled config start q.state.sentInWindow turns' q q') :
    Filled config start count (turns ++ turns') p q' := by
  obtain ⟨new, hnew, hsub, hlen⟩ := h.adds
  obtain ⟨new', hnew', hsub', hlen'⟩ := h'.adds
  refine ⟨h'.opened, fun hcount => h'.limited (h.limited hcount), new ++ new', ?_, ?_, ?_⟩
  · rw [hnew', hnew, List.append_assoc]
  · rw [offered, List.filter_append, List.map_append, List.map_append]
    exact hsub.append hsub'
  · rw [hlen', hlen, List.length_append, Nat.add_assoc]

theorem filled_window {start : Nat} {turns : List Turn} (hstart : p.state.windowStart = some start)
    (hin : ∀ turn ∈ turns, start ≤ turn.now ∧ turn.now < start + config.rateWindow) :
    Filled config start p.state.sentInWindow turns p (processCaptured config p turns) := by
  induction turns generalizing p with
  | nil => exact ⟨hstart, id, [], (List.append_nil _).symm, List.nil_sublist _, rfl⟩
  | cons turn turns ih =>
    obtain ⟨⟨hle, hlt⟩, hin⟩ := List.forall_mem_cons.mp hin
    have hroll := roll_open hstart hle hlt
    have hfirst : Filled config start p.state.sentInWindow [turn] p (processTurn config p turn) :=
      filled_processTurn (by rw [hroll, hstart]) (by rw [hroll])
    exact hfirst.trans (ih hfirst.opened hin)

/-- The first turn after a window opens the next one. -/
theorem filled_closed {turns : List Turn} (hclosed : Closed config turn.now p.state)
    (hin : ∀ t ∈ turns, turn.now ≤ t.now ∧ t.now < turn.now + config.rateWindow) :
    Filled config turn.now 0 (turn :: turns) p (processCaptured config p (turn :: turns)) := by
  have hroll := roll_closed hclosed
  have hfirst : Filled config turn.now 0 [turn] p (processTurn config p turn) :=
    filled_processTurn (by rw [hroll]) (by rw [hroll])
  exact hfirst.trans (filled_window hfirst.opened hin)

theorem offered_sublist (config : ReportConfig) (turns : List Turn) :
    (offered config turns).Sublist (turns.map Turn.now) := List.filter_sublist.map _

/-- The turns of the window that starts at an instant, and those after it. -/
theorem window_split (span now : Nat) (turns : List Turn) : ∃ near far, turns = near ++ far ∧
    near.map Turn.now = (turns.map Turn.now).takeWhile (· < now + span) ∧
    far.map Turn.now = (turns.map Turn.now).dropWhile (· < now + span) := by
  refine ⟨turns.takeWhile fun turn => turn.now < now + span,
    turns.dropWhile fun turn => turn.now < now + span, List.takeWhile_append_dropWhile.symm, ?_, ?_⟩
  · rw [List.takeWhile_map]
    rfl
  · rw [List.dropWhile_map]
    rfl

theorem closed_start (config : ReportConfig) (nows : List Nat) :
    ∀ now ∈ nows.head?, Closed config now Pipeline.start.state := by
  intro now _ start hstart
  cases hstart

/-- The captures are bursts, one for each window of the instants. -/
theorem captures_bursts {nows : List Nat} (hsorted : nows.Pairwise (· ≤ ·)) {turns : List Turn}
    (hnows : turns.map Turn.now = nows) (hclosed : ∀ now ∈ nows.head?, Closed config now p.state) :
    ∃ bs, (processCaptured config p turns).sent.map Sent.now = p.sent.map Sent.now ++ bs.flatten ∧
      List.Forall₂ (FixedWindow.Burst config.maxEventsPerWindow) bs
        (FixedWindow.windows config.rateWindow nows) := by
  induction nows using FixedWindow.windows.induct config.rateWindow generalizing turns p with
  | case1 =>
    obtain rfl := List.map_eq_nil_iff.mp hnows
    exact ⟨[], by simp [processCaptured], by rw [FixedWindow.windows]; exact .nil⟩
  | case2 now nows ih =>
    obtain ⟨turn, turns, rfl, rfl, rfl⟩ := List.map_eq_cons_iff.mp hnows
    obtain ⟨hfirst, hrest⟩ := List.pairwise_cons.mp hsorted
    obtain ⟨near, far, rfl, hnear, hfar⟩ := window_split config.rateWindow turn.now turns
    have hin : ∀ t ∈ near, turn.now ≤ t.now ∧ t.now < turn.now + config.rateWindow := by
      intro t ht
      have hmem : t.now ∈ List.map Turn.now _ := List.mem_map_of_mem ht
      refine ⟨hfirst t.now (by rw [List.map_append]; exact List.mem_append_left _ hmem), ?_⟩
      rw [hnear] at hmem
      simpa using List.mem_takeWhile_imp hmem
    have hfilled := filled_closed (hclosed turn.now rfl) hin
    obtain ⟨new, hnew, hsub, hlen⟩ := hfilled.adds
    have hcap := hfilled.limited (Nat.zero_le _)
    obtain ⟨bs, hbs, hbursts⟩ := ih (hrest.sublist (List.dropWhile_sublist _)) hfar fun now hnow => by
      intro start hstart
      obtain rfl : turn.now = start := Option.some.inj (hfilled.opened.symm.trans hstart)
      exact FixedWindow.le_of_mem_dropWhile hrest (List.mem_of_head? hnow)
    refine ⟨new.map Sent.now :: bs, ?_, ?_⟩
    · rw [← List.cons_append, processCaptured_append, hbs, hnew, List.map_append, List.append_assoc,
        List.flatten_cons]
    · rw [FixedWindow.windows]
      refine .cons ⟨?_, ?_⟩ hbursts
      · rw [← hnear, ← List.map_cons]
        exact hsub.trans (offered_sublist config _)
      · rw [List.length_map]
        omega

theorem countP_instants (start : Int) (span : Nat) (p : Pipeline) :
    (instants p).countP (Window.within start span) =
      FixedWindow.inSpan start span (p.sent.map Sent.now) := by
  rw [instants, FixedWindow.inSpan, List.countP_map, List.countP_map]
  rfl

section Numbered

/-- The log with the number `n`; the client takes it or has stopped. -/
def numberedTurn (takes : Nat → Bool) (n now : Nat) : Turn where
  now := now
  captured := ⟨String.ofList (List.replicate n 'a'), "", .error, []⟩
  captureEvent event := if takes now then .ok event.eventId else .error .senderStopped

/-- Logs with different messages. -/
def numbered (takes : Nat → Bool) : Nat → List Nat → List Turn
  | _, [] => []
  | n, now :: nows => numberedTurn takes n now :: numbered takes (n + 1) nows

variable {takes : Nat → Bool} {n : Nat}

@[simp] theorem map_numbered (takes : Nat → Bool) (n : Nat) (nows : List Nat) :
    (numbered takes n nows).map Turn.now = nows := by
  induction nows generalizing n with
  | nil => rfl
  | cons now nows ih => exact congrArg (now :: ·) (ih (n + 1))

theorem numbered_append (takes : Nat → Bool) (n : Nat) (nows later : List Nat) :
    numbered takes n (nows ++ later) =
      numbered takes n nows ++ numbered takes (n + nows.length) later := by
  induction nows generalizing n with
  | nil => rfl
  | cons now nows ih =>
    rw [List.cons_append, numbered, numbered, ih, List.cons_append, List.length_cons,
      Nat.add_assoc, Nat.add_comm 1]

@[simp] theorem isOk_numberedTurn (takes : Nat → Bool) (n now : Nat) (event : Event) :
    ((numberedTurn takes n now).captureEvent event).isOk = takes now := by
  unfold numberedTurn
  cases takes now <;> rfl

theorem offered_numbered (config : ReportConfig) (n : Nat) (nows : List Nat) :
    offered config (numbered takes n nows) = nows.filter takes := by
  induction nows generalizing n with
  | nil => rfl
  | cons now nows ih =>
    have ih := ih (n + 1)
    unfold offered at ih ⊢
    rw [numbered, List.filter_cons, List.filter_cons, isOk_numberedTurn]
    split
    · rw [List.map_cons, ih]
      rfl
    · exact ih

/-- Only earlier numbers are in the table. -/
def Unused (n : Nat) (state : ThrottleState) : Prop :=
  ∀ entry ∈ state.lastSent, entry.1.toList.length < n

theorem Unused.lookup {state : ThrottleState} (h : Unused n state) :
    state.lastSent.lookup (String.ofList (List.replicate n 'a')) = none := by
  rw [List.lookup_eq_none_iff]
  intro entry hentry
  have := h entry hentry
  rw [bne_iff_ne]
  intro hsame
  rw [← hsame, String.toList_ofList, List.length_replicate] at this
  omega

/-- A log with a new number is captured when the client takes it and the window
has room. -/
theorem numbered_processTurn (takes : Nat → Bool) {count : Nat} (hunused : Unused n p.state)
    (hcount : (p.state.roll config now).sentInWindow = count) :
    Unused (n + 1) (processTurn config p (numberedTurn takes n now)).state ∧
      (processTurn config p (numberedTurn takes n now)).state.sentInWindow =
        if takes now ∧ count < config.maxEventsPerWindow then count + 1 else count := by
  subst hcount
  have hnew : (p.state.roll config now).suppresses config now (String.ofList (List.replicate n 'a')) =
      false := by
    rw [ThrottleState.suppresses, lastSent_roll, hunused.lookup, Option.any_none]
  have hpasses : (p.state.roll config now).Passes config (numberedTurn takes n now) ↔
      takes now ∧ (p.state.roll config now).sentInWindow < config.maxEventsPerWindow := by
    rw [ThrottleState.Passes, isOk_numberedTurn, and_comm, and_assoc]
    exact ⟨fun h => ⟨h.2.1, h.2.2⟩, fun h => ⟨hnew, h.1, h.2⟩⟩
  have hlater : ∀ entry ∈ p.state.lastSent, entry.1.toList.length < n + 1 := fun entry hentry =>
    Nat.lt_succ_of_lt (hunused entry hentry)
  rcases processTurn_cases config p (numberedTurn takes n now) with ⟨hpass, heq⟩ | ⟨hpass, dropped, heq⟩
  · rw [heq, if_pos (hpasses.mp hpass)]
    refine ⟨?_, rfl⟩
    dsimp only [ThrottleState.remember]
    refine List.forall_mem_cons.mpr ⟨?_, fun entry hentry => ?_⟩
    · simp [numberedTurn]
    · have hentry := List.mem_of_mem_filter hentry
      split at hentry
      · cases hentry
      · rw [lastSent_roll] at hentry
        exact hlater entry hentry
  · rw [heq, if_neg (fun h => hpass (hpasses.mpr h))]
    refine ⟨?_, rfl⟩
    dsimp only [Unused]
    rw [lastSent_roll]
    exact hlater

/-- Counting one log and then the others, or all of them at once. -/
theorem min_count_cons (takes : Nat → Bool) (cap sent now : Nat) (nows : List Nat) :
    min cap ((if takes now ∧ sent < cap then sent + 1 else sent) + nows.countP takes) =
      min cap (sent + (now :: nows).countP takes) := by
  cases htakes : takes now with
  | false =>
    rw [List.countP_cons_of_neg (by simp [htakes]), if_neg (by simp)]
  | true =>
    rw [List.countP_cons_of_pos htakes]
    by_cases hroom : sent < cap
    · rw [if_pos ⟨rfl, hroom⟩]
      omega
    · rw [if_neg fun h => hroom h.2]
      omega

theorem numbered_window (takes : Nat → Bool) {start : Nat} {nows : List Nat}
    (hstart : p.state.windowStart = some start)
    (hin : ∀ now ∈ nows, start ≤ now ∧ now < start + config.rateWindow) (hunused : Unused n p.state)
    (hcap : p.state.sentInWindow ≤ config.maxEventsPerWindow) :
    Unused (n + nows.length) (processCaptured config p (numbered takes n nows)).state ∧
      (processCaptured config p (numbered takes n nows)).state.sentInWindow =
        min config.maxEventsPerWindow (p.state.sentInWindow + nows.countP takes) := by
  induction nows generalizing n p with
  | nil => exact ⟨hunused, (Nat.min_eq_right hcap).symm⟩
  | cons now nows ih =>
    obtain ⟨⟨hle, hlt⟩, hin⟩ := List.forall_mem_cons.mp hin
    have hroll := roll_open hstart hle hlt
    have hopened : (processTurn config p (numberedTurn takes n now)).state.windowStart = some start :=
      (filled_processTurn ((congrArg ThrottleState.windowStart hroll).trans hstart) rfl).opened
    have hsent : (p.state.roll config now).sentInWindow = p.state.sentInWindow := by rw [hroll]
    obtain ⟨hfirst, hcount⟩ := numbered_processTurn takes hunused hsent
    obtain ⟨hrest, hcounts⟩ := ih hopened hin hfirst (by rw [hcount]; split <;> omega)
    refine ⟨?_, ?_⟩
    · rwa [List.length_cons, Nat.add_comm nows.length, ← Nat.add_assoc]
    · refine hcounts.trans ?_
      rw [hcount, min_count_cons]

/-- In a new window the client gets what it takes, up to the limit. -/
theorem numbered_closed (takes : Nat → Bool) {nows : List Nat} (hclosed : Closed config now p.state)
    (hin : ∀ t ∈ nows, now ≤ t ∧ t < now + config.rateWindow) (hunused : Unused n p.state) :
    (processCaptured config p (numbered takes n (now :: nows))).state.windowStart = some now ∧
      Unused (n + (now :: nows).length) (processCaptured config p (numbered takes n (now :: nows))).state ∧
      ∃ new : List Sent, (processCaptured config p (numbered takes n (now :: nows))).sent = p.sent ++ new ∧
        (new.map Sent.now).Sublist ((now :: nows).filter takes) ∧
        new.length = min config.maxEventsPerWindow ((now :: nows).countP takes) := by
  have hturns : ∀ t ∈ numbered takes (n + 1) nows, now ≤ t.now ∧ t.now < now + config.rateWindow := by
    intro t ht
    have hmem : t.now ∈ List.map Turn.now _ := List.mem_map_of_mem ht
    rw [map_numbered] at hmem
    exact hin t.now hmem
  have hfilled := @filled_closed config p (numberedTurn takes n now) _ hclosed hturns
  have hroll := roll_closed hclosed
  have hsent : (p.state.roll config now).sentInWindow = 0 := by rw [hroll]
  obtain ⟨hfirst, hcount⟩ := numbered_processTurn takes hunused hsent
  have hopened : (processTurn config p (numberedTurn takes n now)).state.windowStart = some now :=
    (filled_processTurn (congrArg ThrottleState.windowStart hroll) rfl).opened
  obtain ⟨hrest, hcounts⟩ := numbered_window takes hopened hin hfirst
    (by rw [hcount]; split <;> omega)
  obtain ⟨new, hnew, hsub, hlen⟩ := hfilled.adds
  refine ⟨hfilled.opened, ?_, new, hnew, ?_, ?_⟩
  · rw [List.length_cons, Nat.add_comm nows.length, ← Nat.add_assoc]
    exact hrest
  · rwa [← offered_numbered config n]
  · have hsame : processCaptured config p (numbered takes n (now :: nows)) =
        processCaptured config (processTurn config p (numberedTurn takes n now))
          (numbered takes (n + 1) nows) := rfl
    rw [Nat.zero_add] at hlen
    rw [← hlen]
    refine hcounts.trans ?_
    rw [hcount, min_count_cons, Nat.zero_add]

theorem sent_processCaptured (config : ReportConfig) (p : Pipeline) (turns : List Turn) :
    p.sent <+: (processCaptured config p turns).sent := by
  induction turns generalizing p with
  | nil => exact List.prefix_rfl
  | cons turn turns ih =>
    refine List.IsPrefix.trans ?_ (ih (processTurn config p turn))
    rcases processTurn_cases config p turn with ⟨-, heq⟩ | ⟨-, dropped, heq⟩
    · rw [heq]
      exact List.prefix_append _ _
    · simp only [heq, List.prefix_rfl]

/-- Two windows, one after the other, and whatever comes later. -/
theorem numbered_pair (takes : Nat → Bool) {s : Nat} {near firsts : List Nat} (later : List Nat)
    (hnear : ∀ a ∈ near, now ≤ a ∧ a < now + config.rateWindow) (hs : now + config.rateWindow ≤ s)
    (hfirsts : ∀ b ∈ firsts, s ≤ b ∧ b < s + config.rateWindow)
    (hclosed : Closed config now p.state) (hunused : Unused n p.state) : ∃ new new' : List Sent,
      p.sent ++ new ++ new' <+: (processCaptured config p
        (numbered takes n ((now :: near) ++ ((s :: firsts) ++ later)))).sent ∧
      ((new.map Sent.now).Sublist ((now :: near).filter takes) ∧
        new.length = min config.maxEventsPerWindow ((now :: near).countP takes)) ∧
      (new'.map Sent.now).Sublist ((s :: firsts).filter takes) ∧
        new'.length = min config.maxEventsPerWindow ((s :: firsts).countP takes) := by
  obtain ⟨hopened, hunused', new, hnew, hadds⟩ := numbered_closed takes hclosed hnear hunused
  have hclosed' : Closed config s (processCaptured config p (numbered takes n (now :: near))).state := by
    intro start hstart
    obtain rfl : now = start := Option.some.inj (hopened.symm.trans hstart)
    exact hs
  obtain ⟨-, -, new', hnew', hadds'⟩ := numbered_closed takes hclosed' hfirsts hunused'
  refine ⟨new, new', ?_, hadds, hadds'⟩
  rw [numbered_append, processCaptured_append, numbered_append, processCaptured_append, ← hnew, ← hnew']
  exact sent_processCaptured config _ _

/-- The client takes the logs that are young when one of the second window comes
too early: they and the first ones of that window exceed the limit. -/
theorem crowded_pair {s t k : Nat} {near v : List Nat} (later : List Nat)
    (hnear : ∀ a ∈ near, now ≤ a ∧ a < now + config.rateWindow) (hs : now + config.rateWindow ≤ s)
    (hsorted : (s :: v).Pairwise (· ≤ ·)) (hv : ∀ b ∈ v, b < s + config.rateWindow)
    (hk : k < config.maxEventsPerWindow) (ht : t ∈ (s :: v)[k]?)
    (hcrowded : config.maxEventsPerWindow ≤
      (now :: near).countP (fun a => t < a + config.rateWindow) + k)
    (hclosed : Closed config now p.state) (hunused : Unused n p.state) :
    config.maxEventsPerWindow < FixedWindow.inSpan ((t : Int) - config.rateWindow + 1) config.rateWindow
      ((processCaptured config p (numbered (fun a => t < a + config.rateWindow) n
        ((now :: near) ++ ((s :: v) ++ later)))).sent.map Sent.now) := by
  have hbefore : ∀ a ∈ now :: near, a ≤ s := by
    intro a ha
    rcases List.mem_cons.mp ha with rfl | ha
    · omega
    · have := hnear a ha
      omega
  obtain ⟨hlength, hfirsts⟩ := FixedWindow.firsts_between hsorted ht
  have hst : s ≤ t := (hfirsts s List.mem_cons_self).2
  -- Some log of the first window is young, so all of the second one are.
  obtain ⟨a, ha, hyoung⟩ := List.countP_pos_iff.mp (by omega :
    0 < (now :: near).countP (fun a => t < a + config.rateWindow))
  have hlow := hbefore a ha
  simp only [decide_eq_true_eq] at hyoung
  have hall : (s :: v.take k).countP (fun a => t < a + config.rateWindow) = k + 1 := by
    rw [← hlength, List.countP_eq_length]
    intro b hb
    have := hfirsts b hb
    simp only [decide_eq_true_eq]
    omega
  have hsplit : (s :: v) ++ later = (s :: v.take k) ++ (v.drop k ++ later) := by
    rw [← List.append_assoc]
    exact congrArg (s :: · ++ later) (List.take_append_drop k v).symm
  obtain ⟨new, new', ⟨more, hsent⟩, ⟨hsub, hlen⟩, hsub', hlen'⟩ :=
    numbered_pair (fun a => t < a + config.rateWindow) (v.drop k ++ later) hnear hs
      (fun b hb => ⟨(hfirsts b (List.mem_cons_of_mem s hb)).1, hv b (List.mem_of_mem_take hb)⟩)
      hclosed hunused
  have hin : FixedWindow.inSpan ((t : Int) - config.rateWindow + 1) config.rateWindow
      (new.map Sent.now) = new.length := by
    rw [FixedWindow.inSpan_eq_length, List.length_map]
    intro x hx
    obtain ⟨hx, hxyoung⟩ := List.mem_filter.mp (hsub.subset hx)
    have := hbefore x hx
    simp only [decide_eq_true_eq] at hxyoung
    omega
  have hin' : FixedWindow.inSpan ((t : Int) - config.rateWindow + 1) config.rateWindow
      (new'.map Sent.now) = new'.length := by
    rw [FixedWindow.inSpan_eq_length, List.length_map]
    intro x hx
    have := hfirsts x (List.mem_of_mem_filter (hsub'.subset hx))
    omega
  rw [hsplit, ← hsent, List.map_append, List.map_append, List.map_append, FixedWindow.inSpan_append,
    FixedWindow.inSpan_append, FixedWindow.inSpan_append, hin, hin', hlen, hlen', hall]
  omega

/-- At instants that are too close, some logs with some outcomes exceed the limit,
whatever was captured before. -/
theorem crowded_exceeds {nows : List Nat} (hsorted : nows.Pairwise (· ≤ ·))
    (hcrowded : ¬ FixedWindow.Spaced config.maxEventsPerWindow config.rateWindow nows) :
    ∃ (takes : Nat → Bool) (start : Int), ∀ (p : Pipeline) (n : Nat),
      (∀ now ∈ nows.head?, Closed config now p.state) → Unused n p.state →
      config.maxEventsPerWindow < FixedWindow.inSpan start config.rateWindow
        ((processCaptured config p (numbered takes n nows)).sent.map Sent.now) := by
  induction nows using FixedWindow.windows.induct config.rateWindow with
  | case1 => exact absurd (by rw [FixedWindow.Spaced, FixedWindow.windows]; exact .nil) hcrowded
  | case2 now nows ih =>
    obtain ⟨hfirst, hrest⟩ := List.pairwise_cons.mp hsorted
    have hnows : now :: nows = (now :: nows.takeWhile (· < now + config.rateWindow)) ++
        nows.dropWhile (· < now + config.rateWindow) := by
      rw [List.cons_append, List.takeWhile_append_dropWhile]
    have hnear : ∀ a ∈ nows.takeWhile (· < now + config.rateWindow),
        now ≤ a ∧ a < now + config.rateWindow := fun a ha =>
      ⟨hfirst a ((List.takeWhile_prefix _).subset ha), by simpa using List.mem_takeWhile_imp ha⟩
    have hfar : (nows.dropWhile (· < now + config.rateWindow)).Pairwise (· ≤ ·) :=
      hrest.sublist (List.dropWhile_sublist _)
    have hlater : ∀ s ∈ nows.dropWhile (· < now + config.rateWindow), now + config.rateWindow ≤ s :=
      fun s hs => FixedWindow.le_of_mem_dropWhile hrest hs
    by_cases hspaced : FixedWindow.Spaced config.maxEventsPerWindow config.rateWindow
        (nows.dropWhile (· < now + config.rateWindow))
    · rw [FixedWindow.Spaced, FixedWindow.windows, List.isChain_cons] at hcrowded
      have hpair := not_and.mp (mt And.symm hcrowded) hspaced
      cases hnext : nows.dropWhile (· < now + config.rateWindow) with
      | nil =>
        refine absurd (fun v hv => ?_) hpair
        rw [hnext, FixedWindow.windows] at hv
        cases hv
      | cons s ss =>
        rw [hnext] at hpair hfar hlater
        rw [FixedWindow.windows, List.head?_cons] at hpair
        simp only [Option.mem_some_iff, forall_eq', FixedWindow.LeavesRoom, not_forall, Nat.not_lt] at hpair
        obtain ⟨k, hk, t, ht, hcrowded⟩ := hpair
        refine ⟨fun a => t < a + config.rateWindow, t - config.rateWindow + 1,
          fun p n hclosed hunused => ?_⟩
        have hss : s :: ss = (s :: ss.takeWhile (· < s + config.rateWindow)) ++
            ss.dropWhile (· < s + config.rateWindow) := by
          rw [List.cons_append, List.takeWhile_append_dropWhile]
        rw [hnows, hnext, hss]
        exact crowded_pair _ hnear (hlater s List.mem_cons_self)
          (hfar.sublist ((List.takeWhile_sublist _).cons_cons s))
          (fun b hb => by simpa using List.mem_takeWhile_imp hb) hk ht hcrowded (hclosed now rfl) hunused
    · obtain ⟨takes, start, hexceeds⟩ := ih hfar hspaced
      refine ⟨takes, start, fun p n hclosed hunused => ?_⟩
      obtain ⟨hopened, hunused', -⟩ := numbered_closed takes (hclosed now rfl) hnear hunused
      rw [hnows, numbered_append, processCaptured_append]
      refine hexceeds _ _ (fun s hs start hstart => ?_) hunused'
      obtain rfl : now = start := Option.some.inj (hopened.symm.trans hstart)
      exact hlater s (List.mem_of_head? hs)

end Numbered

theorem capped_of_spaced {config : ReportConfig} {nows : List Nat} (hsorted : nows.Pairwise (· ≤ ·))
    (hspaced : FixedWindow.Spaced config.maxEventsPerWindow config.rateWindow nows)
    {calls : List (List Turn)} (hnows : calls.flatten.map Turn.now = nows) :
    Window.AtMost config.maxEventsPerWindow config.rateWindow (instants (drainAll config calls)) := by
  intro start
  obtain ⟨bs, hbs, hbursts⟩ := captures_bursts hsorted hnows (closed_start config nows)
  rw [countP_instants, drainAll_eq, hbs, Pipeline.start, List.map_nil, List.nil_append]
  exact FixedWindow.inSpan_bursts_le hsorted hspaced hbursts start

/-- For instants in order: whatever is logged at them, in whatever calls, and
whatever becomes of it, no span shorter than the rate window sees more captures
than the cap, exactly if the instants are spaced; in particular if every window
starts a rate window after the last log before it. -/
theorem rate_capped_iff (config : ReportConfig) (nows : List Nat) (hsorted : nows.Pairwise (· ≤ ·)) :
    ((∀ calls : List (List Turn), calls.flatten.map Turn.now = nows →
      Window.AtMost config.maxEventsPerWindow config.rateWindow (instants (drainAll config calls))) ↔
      FixedWindow.Spaced config.maxEventsPerWindow config.rateWindow nows) ∧
    (FixedWindow.Parted config.rateWindow nows →
      ∀ calls : List (List Turn), calls.flatten.map Turn.now = nows →
        Window.AtMost config.maxEventsPerWindow config.rateWindow (instants (drainAll config calls))) := by
  refine ⟨⟨?_, fun hspaced calls => capped_of_spaced hsorted hspaced⟩,
    fun hparted calls => capped_of_spaced hsorted hparted.spaced⟩
  intro hcap
  by_contra hcrowded
  obtain ⟨takes, start, hexceeds⟩ := crowded_exceeds hsorted hcrowded
  have hcap := hcap [numbered takes 0 nows] (by simp) start
  rw [countP_instants, drainAll_eq, List.flatten_singleton] at hcap
  exact Nat.not_lt.mpr hcap (hexceeds .start 0 (closed_start config nows)
    fun _ hentry => (List.not_mem_nil hentry).elim)

namespace Sample

def twoPerWindow : ReportConfig :=
  { ReportConfig.default with rateWindow := 60, maxEventsPerWindow := 2 }

/-- A log that the client takes. -/
def logAt (now : Nat) (message : String) : Turn where
  now := now
  captured := { message, target := "game::system", level := .error, frames := [] }
  captureEvent event := .ok event.eventId

def burst : List (List Turn) := [[logAt 0 "a", logAt 59 "b"], [logAt 60 "c", logAt 61 "d"]]

end Sample

theorem rate_capped_iff_twoWindows :
    ((∀ calls : List (List Turn), calls.flatten.map Turn.now = [0, 60] →
      Window.AtMost 2 60 (instants (drainAll Sample.twoPerWindow calls))) ↔
      FixedWindow.Spaced 2 60 [0, 60]) ∧
    (FixedWindow.Parted 60 [0, 60] → ∀ calls : List (List Turn), calls.flatten.map Turn.now = [0, 60] →
      Window.AtMost 2 60 (instants (drainAll Sample.twoPerWindow calls))) :=
  rate_capped_iff Sample.twoPerWindow [0, 60] (by decide)

/-- Three captures within two units of time, around a reset of the window. -/
theorem burst_exceeds_cap : Monotone Sample.burst.flatten ∧
    instants (drainAll Sample.twoPerWindow Sample.burst) = [0, 59, 60, 61] ∧
    ¬ Window.AtMost 2 60 (instants (drainAll Sample.twoPerWindow Sample.burst)) :=
  ⟨by decide, by decide +kernel, fun h => absurd (h 59) (by decide +kernel)⟩

/-- Two captures of one message in less than `span` have one between them that
found the table full. -/
def Apart (span : Nat) (sent : List Sent) : Prop :=
  ∀ before x between y after, sent = before ++ x :: (between ++ y :: after) →
    x.message = y.message → y.now < x.now + span → ∃ z ∈ between, z.full = true

/-- Until the table is emptied, it holds what was sent. -/
structure Recalled (config : ReportConfig) (now : Nat) (p : Pipeline) : Prop where
  elapsed : ∀ sent ∈ p.sent, sent.now ≤ now
  kept : ∀ before x after, p.sent = before ++ x :: after → (∀ z ∈ after, z.full = false) →
    ∃ last, p.state.lastSent.lookup x.message = some last ∧ x.now ≤ last
  apart : Apart config.duplicateSuppression p.sent

theorem recalled_start (config : ReportConfig) (now : Nat) : Recalled config now .start where
  elapsed _ h := (List.not_mem_nil h).elim
  kept before x after h := by simp [Pipeline.start] at h
  apart before x between y after h := by simp [Pipeline.start] at h

theorem lookup_filter_ne {entries : List (String × Nat)} {k m : String} (h : k ≠ m) :
    (entries.filter fun entry => entry.1 != m).lookup k = entries.lookup k := by
  induction entries with
  | nil => rfl
  | cons entry entries ih =>
    obtain ⟨key, value⟩ := entry
    rw [List.lookup_cons]
    by_cases hkey : key = m
    · subst hkey
      rw [List.filter_cons_of_neg (by simp), ih, beq_false_of_ne h]
    · rw [List.filter_cons_of_pos (by simpa using hkey), List.lookup_cons, ih]

/-- A split of a list with one more element at the end. -/
theorem append_singleton_split {α : Type} {l before after : List α} {x y : α}
    (h : l ++ [y] = before ++ x :: after) :
    (after = [] ∧ x = y ∧ before = l) ∨ ∃ rest, after = rest ++ [y] ∧ l = before ++ x :: rest := by
  rcases List.eq_nil_or_concat after with rfl | ⟨rest, z, rfl⟩
  · obtain ⟨hl, hx⟩ := List.append_inj' h rfl
    exact .inl ⟨rfl, (List.cons.inj hx).1.symm, hl.symm⟩
  · rw [List.concat_eq_append, ← List.cons_append, ← List.append_assoc] at h
    obtain ⟨hl, hz⟩ := List.append_inj' h rfl
    exact .inr ⟨rest, by rw [(List.cons.inj hz).1, List.concat_eq_append], hl⟩

theorem Recalled.later {later : Nat} (h : Recalled config now p) (hle : now ≤ later) :
    Recalled config later p where
  elapsed sent hsent := Nat.le_trans (h.elapsed sent hsent) hle
  kept := h.kept
  apart := h.apart

/-- Only the window and the count of dropped logs change. -/
theorem Recalled.congr (h : Recalled config now p) {state : ThrottleState}
    (hsame : state.lastSent = p.state.lastSent) : Recalled config now { p with state } where
  elapsed := h.elapsed
  kept := by simpa only [hsame] using h.kept
  apart := h.apart

/-- A capture that found room for its message leaves the others in the table. -/
theorem Recalled.kept_remember (h : Recalled config now p) {message : String} {before after : List Sent}
    {x : Sent} (hsplit : p.sent ++ [⟨now, message, p.state.full config⟩] = before ++ x :: after)
    (hroom : ∀ z ∈ after, z.full = false) :
    ∃ last, (p.state.remember config now message).lastSent.lookup x.message = some last ∧
      x.now ≤ last := by
  rcases append_singleton_split hsplit with ⟨-, rfl, -⟩ | ⟨rest, rfl, hsent⟩
  · exact ⟨now, by simp [ThrottleState.remember], Nat.le_refl _⟩
  · have hfull : p.state.full config = false :=
      hroom _ (List.mem_append_right rest (List.mem_singleton_self _))
    obtain ⟨last, hlast, hle⟩ := h.kept before x rest hsent fun z hz =>
      hroom z (List.mem_append_left _ hz)
    have hx : x ∈ p.sent := hsent ▸ List.mem_append_right _ List.mem_cons_self
    simp only [ThrottleState.remember, hfull, List.lookup_cons]
    by_cases hsame : x.message = message
    · exact ⟨now, by simp [hsame], h.elapsed x hx⟩
    · rw [beq_false_of_ne hsame]
      simp only [Bool.false_eq_true, if_false]
      exact ⟨last, (lookup_filter_ne hsame).trans hlast, hle⟩

/-- A log that is not suppressed follows a full table, or comes late enough. -/
theorem Recalled.apart_remember (h : Recalled config now p) {message : String} {full : Bool}
    (hnew : p.state.suppresses config now message = false) :
    Apart config.duplicateSuppression (p.sent ++ [⟨now, message, full⟩]) := by
  intro before x between y after hsplit hmessage hnear
  rw [← List.cons_append, ← List.append_assoc] at hsplit
  rcases append_singleton_split hsplit with ⟨-, rfl, hsent⟩ | ⟨rest, rfl, hsent⟩
  · -- The new capture is the second of the two.
    by_contra hnone
    obtain ⟨last, hlast, hle⟩ := h.kept before x between hsent.symm fun z hz =>
      Bool.eq_false_iff.mpr fun hfull => hnone ⟨z, hz, hfull⟩
    have hx : x ∈ p.sent := hsent ▸ List.mem_append_right _ List.mem_cons_self
    have helapsed := h.elapsed x hx
    dsimp only at hmessage hnear
    rw [ThrottleState.suppresses, ← hmessage, hlast, Option.any_some,
      decide_eq_false_iff_not] at hnew
    omega
  · refine h.apart before x between y rest ?_ hmessage hnear
    rw [hsent, List.append_assoc, List.cons_append]

theorem Recalled.remember (h : Recalled config now p) {message : String}
    (hnew : p.state.suppresses config now message = false) :
    Recalled config now ⟨p.state.remember config now message,
      p.sent ++ [⟨now, message, p.state.full config⟩]⟩ where
  elapsed := elapsed_append h.elapsed message _
  kept _ _ _ := h.kept_remember
  apart := h.apart_remember hnew

theorem Recalled.processTurn (h : Recalled config turn.now p) :
    Recalled config turn.now (processTurn config p turn) := by
  rcases processTurn_cases config p turn with ⟨hpass, heq⟩ | ⟨-, dropped, heq⟩
  · rw [heq]
    exact (h.congr (lastSent_roll config turn.now p.state)).remember hpass.2.1
  · rw [heq]
    exact h.congr (lastSent_roll config turn.now p.state)

theorem Recalled.processCaptured {turns : List Turn} (h : Recalled config now p)
    (hmono : Monotone turns) (hlater : ∀ turn ∈ turns, now ≤ turn.now) :
    Apart config.duplicateSuppression (processCaptured config p turns).sent := by
  induction turns generalizing now p with
  | nil => exact h.apart
  | cons turn turns ih =>
    obtain ⟨hfirst, hrest⟩ := List.pairwise_cons.mp hmono
    exact ih (h.later (hlater turn List.mem_cons_self)).processTurn hrest hfirst

/-- A message is sent again within its suppression window only after a capture in
between found as many messages tracked as there may be. -/
theorem repeats_only_after_full (config : ReportConfig) (calls : List (List Turn))
    (hmono : Monotone calls.flatten) :
    Apart config.duplicateSuppression (drainAll config calls).sent := by
  rw [drainAll_eq]
  exact (recalled_start config 0).processCaptured hmono fun _ _ => Nat.zero_le _

namespace Sample

def twoTracked : ReportConfig :=
  { twoPerWindow with duplicateSuppression := 60, maxTrackedMessages := 2 }

def repetition : List (List Turn) := [[logAt 0 "a", logAt 59 "b"], [logAt 60 "c", logAt 61 "b"]]

end Sample

theorem repeats_only_after_full_repetition :
    Apart 60 (drainAll Sample.twoTracked Sample.repetition).sent :=
  repeats_only_after_full Sample.twoTracked Sample.repetition (by decide)

/-- The third capture finds the table full, and the second is forgotten. -/
theorem recent_message_is_sent_again :
    Sample.twoTracked.maxEventsPerWindow ≤ Sample.twoTracked.maxTrackedMessages ∧
    Sample.twoTracked.duplicateSuppression ≤ Sample.twoTracked.rateWindow ∧
    Monotone Sample.repetition.flatten ∧
    (drainAll Sample.twoTracked Sample.repetition).sent =
      [⟨0, "a", false⟩, ⟨59, "b", false⟩, ⟨60, "c", true⟩, ⟨61, "b", false⟩] := by
  refine ⟨by decide, by decide, by decide, by decide +kernel⟩

end Zbierak.Bevy
