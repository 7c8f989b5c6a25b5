import Zbierak.AsyncClient
import Mathlib.Data.List.Perm.Basic

/-!
# Where each capture is

A capture is held by the client until its event is on disk or done with. One
step moves at most one capture, and the same capture is never at two places but
while its own `Spool::store` is under way.
-/
namespace Zbierak.SpillLedger

open Sdk Blocking Conservation
open AsyncClient (Waits frame_step inner capture_cases)

/-- `Spool::store` refuses to encode the event. -/
def unencoded (env : Crates) (config : Config) (caller : Caller) (item : Item) :
    Option (Caller × Item) :=
  match Spool.encode env config.spoolMaxBytes item.event with
  | .ok _ => none
  | .error _ => some (caller, item)

/-- The call of `Spool::store` that returns an error at this step. -/
def failing (env : Crates) (config : Config) (w : World) :
    Label → Option (Caller × Item)
  | .lockCapture index =>
    match w.storing, w.client.spilling[index]? with
    | none, some item => unencoded env config .capture item
    | _, _ => none
  | .lockSender =>
    match w.storing, w.client.sender with
    | none, .storing item => unencoded env config .sender item
    | _, _ => none
  | .place served _ _ =>
    match w.storing with
    | some ⟨caller, item, .writing _⟩ => if served then none else some (caller, item)
    | _ => none
  | .list served =>
    match w.storing with
    | some ⟨caller, item, .bounding⟩ => if served then none else some (caller, item)
    | _ => none
  | .evict served =>
    match w.storing with
    | some ⟨caller, item, .evicting total (f :: _)⟩ =>
      if total ≤ config.spoolMaxBytes ∨ (served ∧ ∃ g ∈ w.disk, g.name = f.name) then none
      else some (caller, item)
    | _ => none
  | _ => none

variable {env : Crates} {config : Config} {w w' : World}

/-- The capture that runs `Spool::store`. -/
def calling : Option Storing → List Item
  | some ⟨.capture, item, _⟩ => [item]
  | some ⟨.sender, _, _⟩ | none => []

@[simp] theorem calling_none : calling none = [] := rfl

/-- Captures whose event is with the client, to be posted or stored. -/
def held (w : World) : List Nat :=
  (carried w.client.sender ++ w.client.queue.flatMap Command.items ++
    (calling w.storing ++ w.client.spilling)).map Item.origin

def onDisk (w : World) : List Nat := w.disk.map Spool.File.origin

/-- The capture whose spooled event the sender posts. -/
def inHand (w : World) : List Nat :=
  match w.client.sender with
  | .redelivering _ item | .reposted _ item => [item.origin]
  | _ => []

/-- The capture of a running `Spool::store` that has put its file in place. -/
def settled (w : World) : List Nat :=
  match w.storing with
  | some ⟨_, item, .bounding⟩ | some ⟨_, item, .evicting _ _⟩ => [item.origin]
  | some ⟨_, _, .writing _⟩ | none => []

theorem settled_of_idle (h : w.storing = none) : settled w = [] := by
  unfold settled
  rw [h]

/-- A running `Spool::store` goes on. -/
theorem held_call {caller : Caller} {item : Item} {phase phase' : Phase}
    (hcall : w.storing = some ⟨caller, item, phase⟩) {disk : Spool.Directory} {sequence : Nat}
    {evicted : List Nat} :
    held { w with disk, sequence, evicted, storing := some ⟨caller, item, phase'⟩ } = held w := by
  unfold held
  rw [hcall]
  cases caller <;> rfl

/-- `Spool::store` has returned to the caller that held `origin`. -/
structure Returned (w w' : World) (origin : Nat) : Prop where
  held : (held w).Perm (origin :: held w')
  disk : w'.disk = w.disk
  hand : inHand w' ⊆ inHand w
  settled : settled w ⊆ [origin]
  idle : SpillLedger.settled w' = []
  captured : w'.captured = w.captured

/-- What one step does to the captures. -/
inductive Move (w w' : World) : Prop where
  | kept (held : (held w').Subperm (held w)) (disk : onDisk w' ⊆ onDisk w)
      (hand : ∀ o ∈ inHand w', o ∈ inHand w ∨ (o ∈ onDisk w ∧ settled w = []))
      (settled : settled w' = settled w) (captured : w'.captured = w.captured)
  | captured (held : (held w').Perm (w.captured :: held w)) (disk : w'.disk = w.disk)
      (hand : inHand w' = inHand w) (settled : settled w' = settled w)
      (captured : w'.captured = w.captured + 1)
  | placed (origin : Nat) (mem : origin ∈ held w) (held : held w' = held w)
      (disk : onDisk w' ⊆ origin :: onDisk w) (hand : inHand w' = inHand w)
      (writing : settled w = []) (settled : settled w' = [origin])
      (captured : w'.captured = w.captured)
  | returned (origin : Nat) (h : Returned w w' origin)

theorem Move.of_eq (hheld : held w' = held w) (hdisk : onDisk w' ⊆ onDisk w)
    (hhand : inHand w' ⊆ inHand w) (hsettled : settled w' = settled w)
    (hcaptured : w'.captured = w.captured) : Move w w' :=
  .kept (hheld ▸ List.Subperm.refl _) hdisk (fun _ ho => .inl (hhand ho)) hsettled hcaptured

theorem returned_finish {caller : Caller} {item : Item} (ok : Bool)
    (hcapture : caller = .capture → calling w.storing = [item])
    (hsender : caller = .sender → w.client.sender = .storing item ∧ calling w.storing = [])
    (hsettled : settled w ⊆ [item.origin]) :
    Returned w (finish w caller item ok) item.origin := by
  cases caller with
  | capture =>
    refine ⟨?_, rfl, List.Subset.refl _, hsettled, rfl, rfl⟩
    simp only [held, hcapture rfl, finish, calling_none, List.map_append, List.map_cons,
      List.nil_append, List.cons_append]
    exact List.perm_middle
  | sender =>
    obtain ⟨hstoring, hcalling⟩ := hsender rfl
    refine ⟨?_, rfl, List.nil_subset _, hsettled, rfl, rfl⟩
    simp only [held, hcalling, hstoring, finish, calling_none, carried, World.setSender,
      List.map_append, List.map_cons, List.nil_append, List.cons_append]
    exact .refl _

theorem move_capture (event : Event) (uuid timestamp : String) (breadcrumbs : List Breadcrumb) :
    Move w (capture env config w event uuid timestamp breadcrumbs) := by
  have hsame : Move w w := .of_eq rfl (List.Subset.refl _) (List.Subset.refl _) rfl rfl
  unfold capture
  split
  · exact hsame
  · dsimp only
    split
    · exact hsame
    · next client hclient =>
      unfold Process.enqueue at hclient
      split at hclient
      · cases hclient
      · split at hclient <;> cases hclient <;> refine .captured ?_ rfl rfl rfl rfl
        · simp only [held, List.flatMap_append, List.flatMap_cons, List.flatMap_nil, Command.items,
            List.append_nil, List.map_append, List.map_cons, List.append_assoc, List.cons_append,
            List.nil_append]
          rw [← List.append_assoc, ← List.append_assoc]
          exact List.perm_middle
        · simp only [held, List.map_append, List.map_cons, List.map_nil]
          simp only [← List.append_assoc]
          exact List.perm_append_singleton _ _

theorem held_receive {client : Process} (hr : w.client.receive = some client) :
    held { w with client } = held w ∧ inHand { w with client } ⊆ inHand w := by
  unfold Process.receive at hr
  split at hr <;> cases hr <;> simp_all [held, inHand, carried, Command.items]

/-- The sender goes on, and lets go of nothing but its own event. -/
theorem move_setSender {sender : Sender} {answers : List (Nat × Nat)}
    (hcarried : (carried sender).Sublist (carried w.client.sender))
    (hhand : inHand (w.setSender sender) ⊆ inHand w) :
    Move w { w.setSender sender with answers } :=
  .kept (((hcarried.append_right _).append_right _).map _).subperm (List.Subset.refl _)
    (fun _ ho => .inl (hhand ho)) rfl rfl

theorem onDisk_remove (name : String) (disk : Spool.Directory) :
    (Spool.remove name disk).map Spool.File.origin ⊆ disk.map Spool.File.origin :=
  List.map_subset _ fun _ => Spool.mem_remove

theorem returned_call (hwaits : Waits w) {caller : Caller} {item : Item} {phase : Phase}
    (hcall : w.storing = some ⟨caller, item, phase⟩) (ok : Bool) :
    Returned w (finish w caller item ok) item.origin := by
  refine returned_finish ok (fun hcaller => ?_) (fun hcaller => ?_) ?_
  · rw [hcall, hcaller]
    rfl
  · subst hcaller
    exact ⟨hwaits _ _ hcall, by rw [hcall]; rfl⟩
  · unfold settled
    rw [hcall]
    cases phase <;> simp

/-- A step, and the return of the call that fails at it. -/
structure Effect (env : Crates) (config : Config) (w : World) (label : Label)
    (w' : World) : Prop where
  move : Move w w'
  returned : ∀ call ∈ failing env config w label, Returned w w' call.2.origin

/-- The call that `lock` starts, or that fails at once. -/
theorem effect_lock {u : World} {caller : Caller} {item : Item}
    (hl : lock env config w caller item = some w')
    (hstart : w.storing = none → ∀ bytes,
      Move u { w with storing := some ⟨caller, item, .writing bytes⟩ })
    (hend : w.storing = none → Returned u (finish w caller item false) item.origin) :
    w.storing = none ∧ Move u w' ∧
      ∀ call ∈ unencoded env config caller item, Returned u w' call.2.origin := by
  obtain ⟨hnone, ⟨bytes, hencode, rfl⟩ | ⟨⟨e, hencode⟩, rfl⟩⟩ := lock_some hl
  · exact ⟨hnone, hstart hnone bytes, by simp [unencoded, hencode]⟩
  · exact ⟨hnone, .returned _ (hend hnone), by simpa [unencoded, hencode] using hend hnone⟩

theorem effect_lockCapture {index : Nat}
    (hstep : step env config w (.lockCapture index) = some w') :
    Effect env config w (.lockCapture index) w' := by
  obtain ⟨item, hitem, hlock⟩ := step_lockCapture hstep
  have hspilling : (item :: w.client.spilling.eraseIdx index).Perm w.client.spilling := by
    obtain ⟨hindex, rfl⟩ := List.getElem?_eq_some_iff.mp hitem
    exact List.getElem_cons_eraseIdx_perm hindex
  have hperm : ∀ front : List Item,
      ((front ++ w.client.spilling).map Item.origin).Perm
        (item.origin :: (front ++ w.client.spilling.eraseIdx index).map Item.origin) := fun front =>
    ((hspilling.symm.append_left front).trans List.perm_middle).map Item.origin
  obtain ⟨hnone, hmove, hreturned⟩ := effect_lock (u := w) hlock
    (fun hnone bytes => by
      refine .kept ?_ (List.Subset.refl _) (fun _ ho => .inl ho) ?_ rfl
      · unfold held
        rw [show w.storing = none from hnone]
        exact ((hspilling.append_left _).map _).subperm
      · exact (settled_of_idle hnone).symm)
    (fun hnone => by
      refine ⟨?_, rfl, List.Subset.refl _, ?_, rfl, rfl⟩
      · unfold held
        rw [show w.storing = none from hnone]
        exact hperm _
      · rw [settled_of_idle (w := w) hnone]
        exact List.nil_subset _)
  refine ⟨hmove, fun call hcall => hreturned call ?_⟩
  simpa [failing, show w.storing = none from hnone, hitem] using hcall

theorem effect_lockSender (hstep : step env config w .lockSender = some w') :
    Effect env config w .lockSender w' := by
  obtain ⟨item, hsender, hlock⟩ := step_lockSender hstep
  obtain ⟨hnone, hmove, hreturned⟩ := effect_lock (u := w) hlock
    (fun hnone bytes => by
      refine .of_eq ?_ (List.Subset.refl _) (List.Subset.refl _) ?_ rfl
      · unfold held
        rw [hnone]
        rfl
      · exact (settled_of_idle hnone).symm)
    (fun hnone => by
      refine returned_finish false (fun hcaller => ?_) (fun _ => ⟨hsender, ?_⟩) ?_
      · cases hcaller
      · rw [hnone]
        rfl
      · rw [settled_of_idle hnone]
        exact List.nil_subset _)
  refine ⟨hmove, fun call hcall => hreturned call ?_⟩
  simpa [failing, hnone, hsender] using hcall

/-- A file under its final name replaces at most one. -/
theorem onDisk_rename (file : Spool.File) (disk : Spool.Directory) :
    (Spool.rename file disk).map Spool.File.origin ⊆ file.origin :: disk.map Spool.File.origin := by
  intro o ho
  obtain ⟨f, hf, rfl⟩ := List.mem_map.mp ho
  rcases Spool.mem_rename_iff.mp hf with ⟨hf, -⟩ | rfl
  · exact List.mem_cons_of_mem _ (List.mem_map_of_mem hf)
  · exact List.mem_cons_self

theorem mem_held (hwaits : Waits w) {caller : Caller} {item : Item} {phase : Phase}
    (hcall : w.storing = some ⟨caller, item, phase⟩) : item.origin ∈ held w := by
  refine List.mem_map_of_mem ?_
  cases caller with
  | capture => simp [hcall, calling]
  | sender => simp [hwaits _ _ hcall, carried]

theorem effect_place (hwaits : Waits w) {served : Bool} {timestamp : Nat} {uuid : String}
    (hstep : step env config w (.place served timestamp uuid) = some w') :
    Effect env config w (.place served timestamp uuid) w' := by
  obtain ⟨caller, item, bytes, hcall, ⟨rfl, rfl⟩ | ⟨rfl, rfl⟩⟩ := step_place hstep
  · refine ⟨.placed item.origin (mem_held hwaits hcall) ?_ (onDisk_rename _ _) rfl ?_ rfl rfl, ?_⟩
    · exact held_call hcall
    · simp [settled, hcall]
    · simp [failing, hcall]
  · have hwaits' : Waits { w with sequence := w.sequence + 1 } := hwaits
    have hreturned : Returned w (finish { w with sequence := w.sequence + 1 } caller item false)
        item.origin := by
      obtain ⟨hheld, hdisk, hhand, hsettled, hidle, hcaptured⟩ :=
        returned_call hwaits' (show { w with sequence := w.sequence + 1 }.storing = _ from hcall)
          false
      exact ⟨hheld, hdisk, hhand, hsettled, hidle, hcaptured⟩
    exact ⟨.returned _ hreturned, by simpa [failing, hcall] using hreturned⟩

theorem effect_list (hwaits : Waits w) {served : Bool}
    (hstep : step env config w (.list served) = some w') :
    Effect env config w (.list served) w' := by
  obtain ⟨caller, item, hcall, ⟨rfl, rfl⟩ | ⟨rfl, rfl⟩⟩ := step_list hstep
  · refine ⟨.of_eq ?_ (List.Subset.refl _) (List.Subset.refl _) ?_ rfl, ?_⟩
    · exact held_call hcall
    · simp [settled, hcall]
    · simp [failing, hcall]
  · have hreturned := returned_call hwaits hcall false
    exact ⟨.returned _ hreturned, by simpa [failing, hcall] using hreturned⟩

theorem effect_evict (hwaits : Waits w) {served : Bool}
    (hstep : step env config w (.evict served) = some w') :
    Effect env config w (.evict served) w' := by
  obtain ⟨caller, item, total, files, hcall, rfl⟩ := step_evict hstep
  have hreturned := returned_call hwaits hcall
  obtain ⟨hdone, hevict⟩ | ⟨f, rest, rfl, hover, ⟨hserved, hevict⟩ | ⟨hserved, hevict⟩⟩ :=
    evict_cases config w caller item served total files
  · rw [hevict]
    refine ⟨.returned _ (hreturned true), ?_⟩
    rcases hdone with rfl | hfits
    · simp [failing, hcall]
    · cases files <;> simp [failing, hcall, hfits]
  · rw [hevict]
    refine ⟨.of_eq ?_ (onDisk_remove _ _) (List.Subset.refl _) ?_ rfl, ?_⟩
    · exact held_call hcall
    · simp [settled, hcall]
    · simp [failing, hcall, hserved]
  · rw [hevict]
    refine ⟨.returned _ (hreturned false), ?_⟩
    simpa [failing, hcall, hover, hserved] using hreturned false

theorem move_pick {reads : Nat} (hstep : step env config w (.pick reads) = some w') :
    Move w w' := by
  obtain ⟨hsender, hnone, disk, hpicked⟩ := step_pick hstep
  have hheld : ∀ sender, carried sender = [] →
      held ({ w with disk }.setSender sender) = held w := by
    intro sender hcarried
    have hidle : carried w.client.sender = [] := by rw [hsender]; rfl
    simp [held, World.setSender, hcarried, hidle]
  obtain ⟨hpick, rfl⟩ | ⟨file, event, hpick, rfl⟩ := hpicked
  · obtain ⟨hsub, -⟩ := Spool.oldestLoop_spec hpick
    exact .of_eq (hheld _ rfl) (List.map_subset _ hsub) (List.nil_subset _) rfl rfl
  · obtain ⟨hsub, hfound⟩ := Spool.oldestLoop_spec hpick
    refine .kept ?_ (List.map_subset _ hsub) (fun o ho => ?_) rfl rfl
    · rw [hheld _ rfl]
    · obtain rfl := List.mem_singleton.mp ho
      have hfile := Spool.mem_paths.mp (List.mem_of_mem_take (hfound file event rfl).1)
      exact .inr ⟨List.mem_map_of_mem hfile, settled_of_idle hnone⟩

theorem move_remove {served : Bool}
    (hstep : step env config w (.remove served) = some w') : Move w w' := by
  obtain ⟨file, hsender, rfl⟩ := step_remove hstep
  refine .of_eq ?_ ?_ (List.nil_subset _) rfl rfl
  · unfold held
    rw [hsender]
    rfl
  · cases served with
    | true => exact onDisk_remove file w.disk
    | false => exact List.Subset.refl _

/-- A step that no call of `Spool::store` fails at. -/
theorem Effect.of_move {label : Label} (hmove : Move w w')
    (hnone : failing env config w label = none) : Effect env config w label w' :=
  ⟨hmove, by simp [hnone]⟩

theorem move_transmit (hstep : step env config w .transmit = some w') : Move w w' := by
  obtain ⟨item, posted, sender, hout, hnext, rfl⟩ := step_transmit hstep
  have hmove : (carried sender = carried w.client.sender ∨ carried sender = []) ∧
      inHand (w.setSender sender) ⊆ inHand w := by
    cases hs : w.client.sender <;> rw [hs] at hout <;> cases hout
    all_goals
      rcases hnext with rfl | hsettle
      · simp [hs, carried, inHand, World.setSender]
      · cases hsettle
        simp [hs, carried, inHand, World.setSender]
  obtain ⟨hcarried, hhand⟩ := hmove
  refine move_setSender ?_ hhand
  rcases hcarried with h | h <;> rw [h]
  exact List.nil_sublist _

theorem move_answer {response : Except String Nat}
    (hstep : step env config w (.answer response) = some w') : Move w w' := by
  obtain ⟨sender, hsettle, rfl⟩ := Option.map_eq_some_iff.mp hstep
  refine move_setSender ?_ ?_
  all_goals
    cases hs : w.client.sender <;> rw [hs] at hsettle <;>
      cases hout : outcome response <;> rw [hout] at hsettle <;> cases hsettle <;>
      simp [hs, carried, inHand, World.setSender]

theorem effect_step (hwaits : Waits w) {label : Label}
    (hstep : step env config w label = some w') : Effect env config w label w' := by
  cases label with
  | capture event uuid timestamp breadcrumbs =>
    obtain ⟨-, rfl⟩ := step_capture hstep
    exact .of_move (move_capture event uuid timestamp breadcrumbs) rfl
  | flush =>
    obtain ⟨-, hpush⟩ := step_flush hstep
    obtain ⟨-, rfl⟩ := push_some hpush
    refine .of_move (.of_eq ?_ (List.Subset.refl _) (List.Subset.refl _) rfl rfl) rfl
    simp [held, Command.items]
  | drop =>
    obtain ⟨-, rfl⟩ := step_drop hstep
    exact .of_move (.of_eq rfl (List.Subset.refl _) (List.Subset.refl _) rfl rfl) rfl
  | shutdown =>
    obtain ⟨-, pushed, hpush, rfl⟩ := step_shutdown hstep
    obtain ⟨-, rfl⟩ := push_some hpush
    refine .of_move (.of_eq ?_ (List.Subset.refl _) (List.Subset.refl _) rfl rfl) rfl
    simp [held, Command.items]
  | receive =>
    obtain ⟨client, hr, rfl⟩ := step_receive hstep
    obtain ⟨hheld, hhand⟩ := held_receive hr
    exact .of_move (.of_eq hheld (List.Subset.refl _) hhand rfl rfl) rfl
  | timeout =>
    obtain ⟨-, -, rfl⟩ := step_timeout hstep
    refine .of_move (move_setSender (by simp [carried]) ?_) rfl
    exact List.nil_subset _
  | transmit => exact .of_move (move_transmit hstep) rfl
  | answer response => exact .of_move (move_answer hstep) rfl
  | lockCapture index => exact effect_lockCapture hstep
  | lockSender => exact effect_lockSender hstep
  | place served timestamp uuid => exact effect_place hwaits hstep
  | list served => exact effect_list hwaits hstep
  | evict served => exact effect_evict hwaits hstep
  | pick reads => exact .of_move (move_pick hstep) rfl
  | pause =>
    obtain ⟨-, rfl⟩ := step_pause hstep
    refine .of_move (move_setSender (by simp [carried]) ?_) rfl
    exact List.nil_subset _
  | remove served => exact .of_move (move_remove hstep) rfl

theorem waits_step (h : Waits w) {label : Label} (hstep : step env config w label = some w') :
    Waits w' := by
  cases label with
  | capture event uuid timestamp breadcrumbs =>
    obtain ⟨-, rfl⟩ := step_capture hstep
    rcases capture_cases env config w ⟨event, uuid, timestamp, breadcrumbs⟩ with
      hsame | ⟨item, -, hqueued⟩ | ⟨item, hspilling⟩
    · rwa [hsame]
    · rw [hqueued]
      exact h
    · rw [hspilling]
      exact h
  | flush =>
    obtain ⟨-, hpush⟩ := step_flush hstep
    obtain ⟨-, rfl⟩ := push_some hpush
    exact h
  | drop =>
    obtain ⟨-, rfl⟩ := step_drop hstep
    exact h
  | shutdown =>
    obtain ⟨-, pushed, hpush, rfl⟩ := step_shutdown hstep
    obtain ⟨-, rfl⟩ := push_some hpush
    exact h
  | receive =>
    obtain ⟨client, hr, rfl⟩ := step_receive hstep
    intro item phase hcall
    simp [Process.receive, h item phase hcall] at hr
  | transmit =>
    obtain ⟨item, posted, sender, hout, -, rfl⟩ := step_transmit hstep
    intro item phase hcall
    rw [h item phase hcall] at hout
    cases hout
  | _ => exact (frame_step rfl h hstep).waits

/-- Where each capture is: with the client, on disk, in the hand of the sender,
or told of the failure of the spool. -/
structure Located (w : World) (refused : List Nat) : Prop where
  nodup : (held w).Nodup
  old : ∀ o, o ∈ held w ∨ o ∈ onDisk w ∨ o ∈ inHand w ∨ o ∈ refused → o < w.captured
  disk : ∀ o ∈ held w, o ∈ onDisk w → o ∈ settled w
  hand : ∀ o ∈ held w, o ∉ inHand w
  refused : ∀ o ∈ refused, o ∉ held w ∧ o ∉ onDisk w ∧ o ∉ inHand w

variable {refused : List Nat}

theorem Located.kept (h : Located w refused) (hheld : (held w').Subperm (held w))
    (hdisk : onDisk w' ⊆ onDisk w)
    (hhand : ∀ o ∈ inHand w', o ∈ inHand w ∨ (o ∈ onDisk w ∧ settled w = []))
    (hsettled : settled w' = settled w) (hcaptured : w'.captured = w.captured) :
    Located w' refused where
  nodup := by
    obtain ⟨kept, hperm, hsub⟩ := hheld
    exact hperm.nodup_iff.mp (hsub.nodup h.nodup)
  old o ho := by
    rw [hcaptured]
    refine h.old o ?_
    rcases ho with ho | ho | ho | ho
    · exact .inl (hheld.subset ho)
    · exact .inr (.inl (hdisk ho))
    · rcases hhand o ho with ho | ⟨ho, -⟩
      · exact .inr (.inr (.inl ho))
      · exact .inr (.inl ho)
    · exact .inr (.inr (.inr ho))
  disk o ho hod := by
    rw [hsettled]
    exact h.disk o (hheld.subset ho) (hdisk hod)
  hand o ho hoh := by
    have ho := hheld.subset ho
    rcases hhand o hoh with hoh | ⟨hod, hnone⟩
    · exact h.hand o ho hoh
    · have := h.disk o ho hod
      rw [hnone] at this
      cases this
  refused o ho := by
    obtain ⟨hnheld, hndisk, hnhand⟩ := h.refused o ho
    refine ⟨fun ho => hnheld (hheld.subset ho), fun ho => hndisk (hdisk ho), fun ho => ?_⟩
    rcases hhand o ho with ho | ⟨ho, -⟩
    · exact hnhand ho
    · exact hndisk ho

theorem Located.captured (h : Located w refused) (hheld : (held w').Perm (w.captured :: held w))
    (hdisk : w'.disk = w.disk) (hhand : inHand w' = inHand w) (hsettled : settled w' = settled w)
    (hcaptured : w'.captured = w.captured + 1) : Located w' refused := by
  have hmem : ∀ o, o ∈ held w' ↔ o = w.captured ∨ o ∈ held w := fun o => by
    rw [hheld.mem_iff, List.mem_cons]
  have hondisk : onDisk w' = onDisk w := by rw [onDisk, hdisk, onDisk]
  have hnew : ∀ o, o ∈ held w ∨ o ∈ onDisk w ∨ o ∈ inHand w ∨ o ∈ refused → o ≠ w.captured :=
    fun o ho => Nat.ne_of_lt (h.old o ho)
  refine ⟨?_, fun o ho => ?_, fun o ho hod => ?_, fun o ho hoh => ?_, fun o ho => ?_⟩
  · rw [hheld.nodup_iff, List.nodup_cons]
    exact ⟨fun hmem => hnew _ (.inl hmem) rfl, h.nodup⟩
  · rw [hmem, hondisk, hhand] at ho
    rcases ho with (rfl | ho) | ho
    · omega
    · have := h.old o (.inl ho)
      omega
    · have := h.old o (.inr ho)
      omega
  · rw [hondisk] at hod
    rw [hsettled]
    rcases (hmem o).mp ho with rfl | ho
    · exact absurd rfl (hnew _ (.inr (.inl hod)))
    · exact h.disk o ho hod
  · rw [hhand] at hoh
    rcases (hmem o).mp ho with rfl | ho
    · exact hnew _ (.inr (.inr (.inl hoh))) rfl
    · exact h.hand o ho hoh
  · obtain ⟨hnheld, hndisk, hnhand⟩ := h.refused o ho
    rw [hmem, hondisk, hhand]
    refine ⟨?_, hndisk, hnhand⟩
    rintro (heq | ho')
    · exact hnew o (.inr (.inr (.inr ho))) heq
    · exact hnheld ho'

theorem Located.placed (h : Located w refused) {origin : Nat} (hmem : origin ∈ held w)
    (hheld : held w' = held w) (hdisk : onDisk w' ⊆ origin :: onDisk w)
    (hhand : inHand w' = inHand w) (hwriting : settled w = []) (hsettled : settled w' = [origin])
    (hcaptured : w'.captured = w.captured) : Located w' refused where
  nodup := hheld ▸ h.nodup
  old o ho := by
    rw [hcaptured]
    rw [hheld, hhand] at ho
    rcases ho with ho | ho | ho
    · exact h.old o (.inl ho)
    · rcases List.mem_cons.mp (hdisk ho) with rfl | ho
      · exact h.old o (.inl hmem)
      · exact h.old o (.inr (.inl ho))
    · exact h.old o (.inr (.inr ho))
  disk o ho hod := by
    rw [hheld] at ho
    rw [hsettled]
    rcases List.mem_cons.mp (hdisk hod) with rfl | hod
    · exact List.mem_cons_self
    · have := h.disk o ho hod
      rw [hwriting] at this
      cases this
  hand := by
    rw [hheld, hhand]
    exact h.hand
  refused o ho := by
    obtain ⟨hnheld, hndisk, hnhand⟩ := h.refused o ho
    rw [hheld, hhand]
    refine ⟨hnheld, fun hod => ?_, hnhand⟩
    rcases List.mem_cons.mp (hdisk hod) with rfl | hod
    · exact hnheld hmem
    · exact hndisk hod

theorem not_held_of_returned {origin : Nat} (h : Returned w w' origin) (hnodup : (held w).Nodup) :
    origin ∉ held w' := by
  rw [h.held.nodup_iff, List.nodup_cons] at hnodup
  exact hnodup.1

theorem Located.returned (h : Located w refused) {origin : Nat} (hr : Returned w w' origin) :
    Located w' refused := by
  have hsub : held w' ⊆ held w := fun o ho => hr.held.mem_iff.mpr (List.mem_cons_of_mem _ ho)
  have hondisk : onDisk w' = onDisk w := by rw [onDisk, hr.disk, onDisk]
  refine ⟨?_, fun o ho => ?_, fun o ho hod => ?_, fun o ho hoh => ?_, fun o ho => ?_⟩
  · exact (List.nodup_cons.mp (hr.held.nodup_iff.mp h.nodup)).2
  · rw [hr.captured]
    rw [hondisk] at ho
    rcases ho with ho | ho | ho | ho
    · exact h.old o (.inl (hsub ho))
    · exact h.old o (.inr (.inl ho))
    · exact h.old o (.inr (.inr (.inl (hr.hand ho))))
    · exact h.old o (.inr (.inr (.inr ho)))
  · rw [hondisk] at hod
    have hsettled := hr.settled (h.disk o (hsub ho) hod)
    obtain rfl := List.mem_singleton.mp hsettled
    exact absurd ho (not_held_of_returned hr h.nodup)
  · exact h.hand o (hsub ho) (hr.hand hoh)
  · obtain ⟨hnheld, hndisk, hnhand⟩ := h.refused o ho
    rw [hondisk]
    exact ⟨fun ho => hnheld (hsub ho), hndisk, fun ho => hnhand (hr.hand ho)⟩

theorem Located.move (h : Located w refused) (hm : Move w w') : Located w' refused := by
  cases hm with
  | kept hheld hdisk hhand hsettled hcaptured => exact h.kept hheld hdisk hhand hsettled hcaptured
  | captured hheld hdisk hhand hsettled hcaptured =>
    exact h.captured hheld hdisk hhand hsettled hcaptured
  | placed origin hmem hheld hdisk hhand hwriting hsettled hcaptured =>
    exact h.placed hmem hheld hdisk hhand hwriting hsettled hcaptured
  | returned origin hr => exact h.returned hr

theorem mem_of_returned {origin : Nat} (h : Returned w w' origin) : origin ∈ held w :=
  h.held.mem_iff.mpr List.mem_cons_self

/-- An event that is told of the failure is nowhere any more. -/
theorem Located.refuse (h : Located w refused) {origin : Nat} (hr : Returned w w' origin)
    (hdisk : origin ∉ onDisk w) : Located w' (origin :: refused) := by
  have h' := h.returned hr
  refine ⟨h'.nodup, fun o ho => ?_, h'.disk, h'.hand, fun o ho => ?_⟩
  · rw [List.mem_cons] at ho
    rcases ho with ho | ho | ho | rfl | ho
    · exact h'.old o (.inl ho)
    · exact h'.old o (.inr (.inl ho))
    · exact h'.old o (.inr (.inr (.inl ho)))
    · rw [hr.captured]
      exact h.old o (.inl (mem_of_returned hr))
    · exact h'.old o (.inr (.inr (.inr ho)))
  · rcases List.mem_cons.mp ho with rfl | ho
    · refine ⟨not_held_of_returned hr h.nodup, ?_,
        fun hoh => h.hand o (mem_of_returned hr) (hr.hand hoh)⟩
      rwa [onDisk, hr.disk]
    · exact h'.refused o ho

theorem lt_nextOrigin {leftover : Spool.Directory} {f : Spool.File} (hf : f ∈ leftover) :
    f.origin < nextOrigin leftover := by
  induction leftover with
  | nil => cases hf
  | cons g leftover ih =>
    rw [nextOrigin]
    rcases List.mem_cons.mp hf with rfl | hf
    · omega
    · have := ih hf
      omega

theorem waits_start (leftover : Spool.Directory) (sequence : Nat) :
    Waits (World.start leftover sequence) := by
  intro item phase hcall
  cases hcall

theorem located_start (leftover : Spool.Directory) (sequence : Nat) :
    Located (World.start leftover sequence) [] := by
  refine ⟨List.nodup_nil, fun o ho => ?_, fun o ho => ?_, fun o ho => ?_, fun o ho => ?_⟩
  · rcases ho with ho | ho | ho | ho
    · cases ho
    · obtain ⟨f, hf, rfl⟩ := List.mem_map.mp ho
      exact lt_nextOrigin hf
    · cases ho
    · cases ho
  · cases ho
  · cases ho
  · cases ho

end Zbierak.SpillLedger
