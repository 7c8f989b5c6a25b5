import Zbierak.Bevy

/-!
# Initialising Bevy reporting

`init` installs a panic hook around the one in place and then tries to set the
process-wide cell. The cell refuses a second client, the hooks do not.
-/
namespace Zbierak.BevyInit

open Bevy (ReportConfig)

/-- A client handle of either runtime. -/
inductive RuntimeClient (Client AsyncClient : Type) where
  | blocking (client : Client)
  | async (client : AsyncClient)
  deriving DecidableEq, Repr

inductive InitError where
  | alreadyInitialized
  deriving DecidableEq, Repr

variable {Client AsyncClient : Type}

/-- The panic hook of the process: the one it had before, or a closure that holds a
client and the hook it replaced. -/
inductive Hook (Client AsyncClient : Type) where
  | earlier
  | capturing (client : RuntimeClient Client AsyncClient) (previous : Hook Client AsyncClient)
  deriving DecidableEq, Repr

/-- A panic captures its event with the client of the hook, whatever comes of it,
and goes on to the previous one. -/
def Hook.invoke {World : Type} (capture : RuntimeClient Client AsyncClient → World → World)
    (earlier : World → World) : Hook Client AsyncClient → World → World
  | .earlier, world => earlier world
  | .capturing client previous, world => previous.invoke capture earlier (capture client world)

/-- The clients that capture a panic, in order. -/
def Hook.captures (hook : Hook Client AsyncClient) : List (RuntimeClient Client AsyncClient) :=
  hook.invoke (fun client log => log ++ [client]) id []

structure Global (Client AsyncClient : Type) where
  client : RuntimeClient Client AsyncClient
  config : ReportConfig

/-- What `init` changes of a process. -/
structure Process (Client AsyncClient : Type) where
  hook : Hook Client AsyncClient
  global : Option (Global Client AsyncClient)

def Process.start : Process Client AsyncClient := ⟨.earlier, none⟩

/-- `take_hook` and `set_hook`. -/
def installPanicHook (client : RuntimeClient Client AsyncClient) (p : Process Client AsyncClient) :
    Process Client AsyncClient :=
  { p with hook := .capturing client p.hook }

/-- `OnceLock::set`. -/
def setGlobal (value : Global Client AsyncClient) (p : Process Client AsyncClient) :
    Except InitError Unit × Process Client AsyncClient :=
  match p.global with
  | none => (.ok (), { p with global := some value })
  | some _ => (.error .alreadyInitialized, p)

def init (client : RuntimeClient Client AsyncClient) (config : ReportConfig)
    (p : Process Client AsyncClient) : Except InitError Unit × Process Client AsyncClient :=
  setGlobal ⟨client, config⟩ (installPanicHook client p)

/-- The client and the configuration of a call. -/
abbrev Call (Client AsyncClient : Type) := RuntimeClient Client AsyncClient × ReportConfig

/-- Calls one after another, with their results. -/
def initAll : List (Call Client AsyncClient) → Process Client AsyncClient →
    List (Except InitError Unit) × Process Client AsyncClient
  | [], p => ([], p)
  | call :: calls, p =>
    let (result, p) := init call.1 call.2 p
    let (results, p) := initAll calls p
    (result :: results, p)

/-- The first client wins completely: it alone is accepted and stored, and it alone
captures a panic. -/
structure FirstWins (first : Call Client AsyncClient) (later : List (Call Client AsyncClient)) :
    Prop where
  results : (initAll (first :: later) .start).1 =
    .ok () :: List.replicate later.length (.error .alreadyInitialized)
  stored : (initAll (first :: later) .start).2.global = some ⟨first.1, first.2⟩
  captured : (initAll (first :: later) .start).2.hook.captures = [first.1]
  unchanged : (initAll (first :: later) .start).2 = (init first.1 first.2 .start).2

/-- Each client of the chain captures the panic once. -/
theorem captures_append (hook : Hook Client AsyncClient)
    (log : List (RuntimeClient Client AsyncClient)) :
    hook.invoke (fun client log => log ++ [client]) id log = log ++ hook.captures := by
  induction hook generalizing log with
  | earlier => exact (List.append_nil log).symm
  | capturing client previous ih =>
    rw [Hook.captures, Hook.invoke, Hook.invoke, ih, ih]
    simp

@[simp] theorem captures_earlier : (Hook.earlier : Hook Client AsyncClient).captures = [] := rfl

@[simp] theorem captures_capturing (client : RuntimeClient Client AsyncClient)
    (previous : Hook Client AsyncClient) :
    (Hook.capturing client previous).captures = client :: previous.captures := by
  rw [Hook.captures, Hook.invoke, captures_append]
  rfl

section Runs

variable {p : Process Client AsyncClient}

/-- What a call does to a process that is initialised: it fails, and wraps the hook. -/
theorem init_again {g : Global Client AsyncClient} (h : p.global = some g)
    (call : Call Client AsyncClient) :
    init call.1 call.2 p = (.error .alreadyInitialized, installPanicHook call.1 p) := by
  rw [init, setGlobal, installPanicHook, h]

theorem initAll_again {g : Global Client AsyncClient} (h : p.global = some g)
    (calls : List (Call Client AsyncClient)) :
    (initAll calls p).1 = List.replicate calls.length (.error .alreadyInitialized) ∧
      (initAll calls p).2.global = some g ∧
      (initAll calls p).2.hook.captures = (calls.map Prod.fst).reverse ++ p.hook.captures := by
  induction calls generalizing p with
  | nil => exact ⟨rfl, h, rfl⟩
  | cons call calls ih =>
    obtain ⟨hresults, hglobal, hcaptures⟩ := ih (p := installPanicHook call.1 p) h
    rw [initAll, init_again h]
    refine ⟨?_, hglobal, ?_⟩
    · dsimp only
      rw [hresults]
      rfl
    · dsimp only
      rw [hcaptures, installPanicHook, captures_capturing]
      simp

/-- After any number of calls the first client is stored, and a panic is captured
once for each call, by the client of the call. -/
theorem initAll_start (first : Call Client AsyncClient) (later : List (Call Client AsyncClient)) :
    (initAll (first :: later) .start).1 =
        .ok () :: List.replicate later.length (.error .alreadyInitialized) ∧
      (initAll (first :: later) .start).2.global = some ⟨first.1, first.2⟩ ∧
      (initAll (first :: later) .start).2.hook.captures =
        ((first :: later).map Prod.fst).reverse := by
  have hfirst : init first.1 first.2 .start =
      (.ok (), ⟨.capturing first.1 .earlier, some ⟨first.1, first.2⟩⟩) := rfl
  obtain ⟨hresults, hglobal, hcaptures⟩ := initAll_again
    (p := ⟨.capturing first.1 .earlier, some ⟨first.1, first.2⟩⟩) rfl later
  rw [initAll, hfirst]
  refine ⟨congrArg _ hresults, hglobal, ?_⟩
  dsimp only
  rw [hcaptures, captures_capturing, captures_earlier, List.map_cons, List.reverse_cons]

/-- The first client wins completely exactly when it is the only one. -/
theorem firstWins_iff (first : Call Client AsyncClient) (later : List (Call Client AsyncClient)) :
    FirstWins first later ↔ later = [] := by
  obtain ⟨hresults, hglobal, hcaptures⟩ := initAll_start first later
  constructor
  · intro h
    have hlength := congrArg List.length (hcaptures.symm.trans h.captured)
    rw [List.length_reverse, List.length_map, List.length_cons, List.length_singleton] at hlength
    exact List.length_eq_zero_iff.mp (by omega)
  · rintro rfl
    exact ⟨hresults, hglobal, hcaptures, rfl⟩

end Runs

/-- A second call fails, and its client captures the next panic nevertheless. -/
theorem second_client_captures : ¬ ∀ (Client AsyncClient : Type)
    (first : Call Client AsyncClient) (later : List (Call Client AsyncClient)),
    FirstWins first later := by
  intro h
  have hcaptured := (h Nat Nat (.blocking 1, .default) [(.async 2, .default)]).captured
  have hboth : (initAll [(.blocking 1, .default), (.async 2, .default)]
      (.start : Process Nat Nat)).2.hook.captures = [.async 2, .blocking 1] := by decide
  rw [hboth] at hcaptured
  exact absurd hcaptured (by decide)

end Zbierak.BevyInit
