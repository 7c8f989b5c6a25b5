import Zbierak.SpillLedger

/-!
# Spills that fail

`Spool::store` writes a temporary file, renames it, and then checks the bound.
Each of these can fail. What a failed call leaves behind is followed here beside
the client, with the captures that were told of the failure.
-/
namespace Zbierak.FailedSpill

open Sdk Blocking Conservation SpillLedger
open AsyncClient (Waits)

/-- `temporaries` holds the captures whose temporary file was left in the
directory, `refused` those whose capture returned the error of the spool. -/
structure World where
  base : Blocking.World
  temporaries : List Nat
  refused : List Nat

def World.start (leftover : Spool.Directory) (sequence : Nat) : World :=
  ⟨.start leftover sequence, [], []⟩

/-- `written` tells whether a `place` that fails has created its temporary file:
`fs::write` can fail before and after it, `fs::rename` only after it. -/
structure Label where
  base : Blocking.Label
  written : Bool

/-- The temporary files after a step. -/
def temporariesAfter (env : Crates) (config : Config) (w : World) (label : Label) : List Nat :=
  match failing env config w.base label.base, label.base with
  | some (_, item), .place _ _ _ =>
    if label.written then item.origin :: w.temporaries else w.temporaries
  | _, _ => w.temporaries

/-- `capture_event` hands the error of the spool to its caller, the sender
discards it. -/
def refusedAfter (env : Crates) (config : Config) (w : World) (label : Label) : List Nat :=
  match failing env config w.base label.base with
  | some (.capture, item) => item.origin :: w.refused
  | some (.sender, _) | none => w.refused

def step (env : Crates) (config : Config) (w : World) (label : Label) : Option World :=
  (Blocking.step env config w.base label.base).map fun base =>
    ⟨base, temporariesAfter env config w label, refusedAfter env config w label⟩

/-- A call that returns an error leaves neither the event nor a temporary file
of it in the directory. -/
def LeavesNothing (env : Crates) (config : Config) (w : World) (label : Label) : Prop :=
  ∀ call ∈ failing env config w.base label.base, ∀ w' ∈ step env config w label,
    (∀ f ∈ w'.base.disk, f.origin ≠ call.2.origin) ∧ call.2.origin ∉ w'.temporaries

/-- The event that is posted is none whose capture returned the error. -/
def NeverSent (w : World) (label : Label) : Prop :=
  match label.base with
  | .transmit => ∀ out ∈ w.base.client.sender.outgoing, out.1.origin ∉ w.refused
  | _ => True

/-- Of the steps of `Spool::store` none fails once the temporary file is there,
but for a deletion that comes after that of the event's own file. -/
def Clean (env : Crates) (config : Config) (w : World) (label : Label) : Prop :=
  match label.base with
  | .place served _ _ => served = false → label.written = false
  | .list served => served = true
  | .evict _ => ∀ call ∈ failing env config w.base label.base,
    ∀ f ∈ w.base.disk, f.origin ≠ call.2.origin
  | _ => True

variable {env : Crates} {config : Config} {leftover : Spool.Directory}

variable {w w' : World}

structure Inv (w : World) : Prop where
  waits : Waits w.base
  located : Located w.base w.refused
  temporaries : w.temporaries = []

/-- Under the condition a call that fails has nothing on disk. -/
theorem not_onDisk (h : Inv w) {label : Label} (hclean : Clean env config w label)
    {call : Caller × Item} (hcall : call ∈ failing env config w.base label.base)
    (hmem : call.2.origin ∈ held w.base) : call.2.origin ∉ onDisk w.base := by
  have hsettled : settled w.base = [] → call.2.origin ∉ onDisk w.base := by
    intro hnone hod
    have := h.located.disk _ hmem hod
    rw [hnone] at this
    cases this
  obtain ⟨base, written⟩ := label
  cases base with
  | lockCapture index =>
    refine hsettled ?_
    simp only [failing] at hcall
    split at hcall
    · next hstoring _ => exact settled_of_idle hstoring
    · cases hcall
  | lockSender =>
    refine hsettled ?_
    simp only [failing] at hcall
    split at hcall
    · next hstoring _ => exact settled_of_idle hstoring
    · cases hcall
  | place served timestamp uuid =>
    refine hsettled ?_
    simp only [failing] at hcall
    split at hcall
    · next hstoring => simp [settled, hstoring]
    · cases hcall
  | list served =>
    obtain rfl : served = true := hclean
    simp only [failing, if_true] at hcall
    split at hcall <;> cases hcall
  | evict served =>
    intro hod
    obtain ⟨f, hf, horigin⟩ := List.mem_map.mp hod
    exact hclean call hcall f hf horigin
  | _ => cases hcall

theorem refusedAfter_eq (label : Label) :
    refusedAfter env config w label = w.refused ∨
      ∃ item, failing env config w.base label.base = some (.capture, item) ∧
        refusedAfter env config w label = item.origin :: w.refused := by
  unfold refusedAfter
  split
  · next item hf => exact .inr ⟨item, hf, rfl⟩
  · exact .inl rfl
  · exact .inl rfl

theorem temporariesAfter_eq {label : Label} (hclean : Clean env config w label) :
    temporariesAfter env config w label = w.temporaries := by
  obtain ⟨base, written⟩ := label
  cases base with
  | place served timestamp uuid =>
    cases served with
    | true =>
      have hnone : failing env config w.base (.place true timestamp uuid) = none := by
        simp only [failing, if_true]
        split <;> rfl
      rw [temporariesAfter, hnone]
    | false =>
      obtain rfl : written = false := hclean rfl
      unfold temporariesAfter
      split <;> rfl
  | _ =>
    unfold temporariesAfter
    split
    · next hlabel => cases hlabel
    · rfl

theorem inv_step {label : Label} (h : Inv w) (hclean : Clean env config w label)
    (hstep : step env config w label = some w') : Inv w' := by
  obtain ⟨base, hbase, rfl⟩ := Option.map_eq_some_iff.mp hstep
  have heffect := effect_step h.waits hbase
  refine ⟨waits_step h.waits hbase, ?_, (temporariesAfter_eq hclean).trans h.temporaries⟩
  dsimp only
  rcases refusedAfter_eq label with hsame | ⟨item, hf, hmore⟩
  · rw [hsame]
    exact h.located.move heffect.move
  · rw [hmore]
    have hr := heffect.returned _ hf
    exact h.located.refuse hr (not_onDisk h hclean hf (mem_of_returned hr))

theorem leavesNothing_of_inv {label : Label} (h : Inv w) (hclean : Clean env config w label) :
    LeavesNothing env config w label := by
  intro call hcall w' hstep
  obtain ⟨base, hbase, rfl⟩ := Option.map_eq_some_iff.mp hstep
  have hr := (effect_step h.waits hbase).returned call hcall
  refine ⟨fun f hf horigin => ?_, ?_⟩
  · have hf : f ∈ w.base.disk := hr.disk ▸ hf
    exact not_onDisk h hclean hcall (mem_of_returned hr) (List.mem_map.mpr ⟨f, hf, horigin⟩)
  · rw [temporariesAfter_eq hclean, h.temporaries]
    exact List.not_mem_nil

theorem neverSent_of_inv {label : Label} (h : Inv w) : NeverSent w label := by
  unfold NeverSent
  split
  · intro out hout hrefused
    obtain ⟨hnheld, -, hnhand⟩ := h.located.refused _ hrefused
    cases hs : w.base.client.sender <;> rw [hs] at hout <;> cases hout
    · exact hnheld (by simp [held, hs, carried])
    · exact hnhand (by simp [inHand, hs])
  · trivial

/-- Every event in memory is held or in the hand of the sender. -/
theorem mem_of_items {w : Blocking.World} {item : Item} (h : item ∈ w.client.items) :
    item.origin ∈ held w ∨ item.origin ∈ inHand w := by
  simp only [Process.items, List.mem_append] at h
  rcases h with (h | h) | h
  · exact .inl (List.mem_map_of_mem (by simp [h]))
  · exact .inl (List.mem_map_of_mem (by simp [h]))
  · cases hs : w.client.sender <;> rw [hs] at h <;> simp_all [held, inHand, carried, Sender.items]

theorem inv_start (leftover : Spool.Directory) (sequence : Nat) :
    Inv (World.start leftover sequence) :=
  ⟨waits_start leftover sequence, located_start leftover sequence, rfl⟩

/-- If each call fails only before its temporary file is there, or after its own
file was deleted, a failed call leaves nothing behind, and an event whose capture
returned the error is neither posted nor kept. -/
theorem failed_spill {sequence : Nat} {labels : List Label}
    (hrun : Runs.run (step env config) labels (World.start leftover sequence) = some w)
    (hclean : Runs.Along (step env config) (Clean env config) labels
      (World.start leftover sequence)) :
    Runs.Along (step env config) (LeavesNothing env config) labels (World.start leftover sequence) ∧
      Runs.Along (step env config) NeverSent labels (World.start leftover sequence) ∧
      ∀ origin ∈ w.refused, (∀ f ∈ w.base.disk, f.origin ≠ origin) ∧
        ∀ item ∈ w.base.client.items, item.origin ≠ origin := by
  have hstart := inv_start leftover sequence
  have hkeep : ∀ s a t, Inv s → Clean env config s a → step env config s a = some t → Inv t :=
    fun _ _ _ h hc hs => inv_step h hc hs
  have hinv : Inv w := Runs.along_invariant hkeep hrun hclean hstart
  refine ⟨hclean.imp_of hkeep (fun _ _ h hc => leavesNothing_of_inv h hc) hstart,
    hclean.imp_of hkeep (fun _ _ h _ => neverSent_of_inv h) hstart, fun origin horigin => ?_⟩
  obtain ⟨hnheld, hndisk, hnhand⟩ := hinv.located.refused origin horigin
  refine ⟨fun f hf heq => hndisk (List.mem_map.mpr ⟨f, hf, heq⟩), fun item hitem heq => ?_⟩
  subst heq
  have hmem := mem_of_items hitem
  tauto

instance (w : World) (label : Label) : Decidable (LeavesNothing env config w label) :=
  inferInstanceAs (Decidable (∀ call ∈ failing env config w.base label.base,
    ∀ w' ∈ step env config w label,
      (∀ f ∈ w'.base.disk, f.origin ≠ call.2.origin) ∧ call.2.origin ∉ w'.temporaries))

instance (w : World) : ∀ label, Decidable (NeverSent w label)
  | ⟨.transmit, _⟩ => inferInstanceAs
    (Decidable (∀ out ∈ w.base.client.sender.outgoing, out.1.origin ∉ w.refused))
  | ⟨.capture .., _⟩ | ⟨.flush, _⟩ | ⟨.drop, _⟩ | ⟨.shutdown, _⟩ | ⟨.receive, _⟩ | ⟨.timeout, _⟩
  | ⟨.answer _, _⟩ | ⟨.lockCapture _, _⟩ | ⟨.lockSender, _⟩ | ⟨.place .., _⟩ | ⟨.list _, _⟩
  | ⟨.evict _, _⟩ | ⟨.pick _, _⟩ | ⟨.pause, _⟩ | ⟨.remove _, _⟩ => isTrue trivial

instance (w : World) : ∀ label, Decidable (Clean env config w label)
  | ⟨.place served _ _, written⟩ => inferInstanceAs (Decidable (served = false → written = false))
  | ⟨.list served, _⟩ => inferInstanceAs (Decidable (served = true))
  | ⟨.evict served, _⟩ => inferInstanceAs (Decidable
    (∀ call ∈ failing env config w.base (.evict served),
      ∀ f ∈ w.base.disk, f.origin ≠ call.2.origin))
  | ⟨.capture .., _⟩ | ⟨.flush, _⟩ | ⟨.drop, _⟩ | ⟨.shutdown, _⟩ | ⟨.receive, _⟩ | ⟨.timeout, _⟩
  | ⟨.transmit, _⟩ | ⟨.answer _, _⟩ | ⟨.lockCapture _, _⟩ | ⟨.lockSender, _⟩ | ⟨.pick _, _⟩
  | ⟨.pause, _⟩ | ⟨.remove _, _⟩ => isTrue trivial

namespace Sample

open Stopping.Sample

def plain (labels : List Blocking.Label) : List Label := labels.map fun base => ⟨base, false⟩

/-- The second capture finds the queue full, and the disk does what `disk` says;
later the sender drains the spool. -/
def spill (disk : List Blocking.Label) : List Label :=
  plain [.capture (Zbierak.Sample.event "m") "e1" "2026-01-02T03:04:06Z" [],
    .capture (Zbierak.Sample.event "n") "e2" "2026-01-02T03:04:06Z" [], .lockCapture 0] ++
    plain disk ++ plain [.receive, .transmit, .answer (.ok 200), .timeout, .pick 3]

end Sample

set_option maxRecDepth 20000 in
theorem failed_spill_unwritten :
    ∃ w, Runs.run (step Stopping.Sample.codec Stopping.Sample.smallQueue)
        (Sample.spill [.place false 1767323046000 "8a01"]) (World.start [] 0) = some w ∧
      ∀ origin ∈ w.refused, (∀ f ∈ w.base.disk, f.origin ≠ origin) ∧
        ∀ item ∈ w.base.client.items, item.origin ≠ origin := by
  have hsome : (Runs.run (step Stopping.Sample.codec Stopping.Sample.smallQueue)
      (Sample.spill [.place false 1767323046000 "8a01"]) (World.start [] 0)).isSome = true := by
    decide +kernel
  obtain ⟨w, hw⟩ := Option.isSome_iff_exists.mp hsome
  exact ⟨w, hw, (failed_spill hw (by decide +kernel)).2.2⟩

set_option maxRecDepth 20000 in
/-- The listing of the bound check fails: the capture returns the error, its file
stays, and the sender posts it. -/
theorem failed_spill_posted :
    let labels := Sample.spill [.place true 1767323046000 "8a01", .list false] ++
      Sample.plain [.transmit]
    (Runs.run (step Stopping.Sample.codec Stopping.Sample.smallQueue) labels
        (World.start [] 0)).isSome ∧
      ¬ Runs.Along (step Stopping.Sample.codec Stopping.Sample.smallQueue)
        (LeavesNothing Stopping.Sample.codec Stopping.Sample.smallQueue) labels (World.start [] 0) ∧
      ¬ Runs.Along (step Stopping.Sample.codec Stopping.Sample.smallQueue) NeverSent labels
        (World.start [] 0) := by
  decide +kernel

end Zbierak.FailedSpill
