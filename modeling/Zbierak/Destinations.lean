import Zbierak.Outbox

/-!
# Where a delivery may connect

The destination policy as a property of one delivery: of the URL and of the
answers the resolver gives at that time. The filter meets it for every answer
list without a 6to4 form of a blocked address.
-/
namespace Zbierak.Destinations

open NetPolicy Outbox

/-- The address list the client is given, empty when there is no client. -/
def given (env : Crates) (resolve : Resolver) (rawUrl : String) : List SocketAddr :=
  match pinnedAddresses env resolve rawUrl with
  | .ok addresses => addresses
  | .error _ => []

/-- The resolver answers a delivery to the URL is decided on. -/
def Answers (env : Crates) (resolve : Resolver) (rawUrl : String) (answers : List IpAddr) : Prop :=
  ∃ host port, destination env rawUrl = .ok (host, port) ∧ resolve host port = .ok answers

def isV4 : IpAddr → Bool
  | .v4 _ => true
  | .v6 _ => false

instance (v : Nat) : Decidable (CarriedBySixToFour v) := inferInstanceAs (Decidable (_ ∧ _))

instance (v : Nat) : Decidable (CarriesBlockedV4 v) := inferInstanceAs (Decidable (_ ∨ _ ∨ _))

instance : DecidablePred Blocked
  | .v4 _ => inferInstanceAs (Decidable (Cidr.InAny _ _))
  | .v6 _ => inferInstanceAs (Decidable (_ ∨ _))

/-- Only unblocked answers are contacted, nothing is sent when there is none,
and the unblocked IPv4 answers are kept in order. -/
structure Policy (env : Crates) (webhookKey : Option Bytes) (resolve : Resolver)
    (rawUrl : String) : Prop where
  clean : ∀ a ∈ given env resolve rawUrl, ∃ answers, Answers env resolve rawUrl answers ∧
    a.ip ∈ answers ∧ ¬ Blocked a.ip
  fails : (∀ answers, Answers env resolve rawUrl answers → ∀ ip ∈ answers, Blocked ip) →
    ∀ delivery : Delivery, delivery.url = rawUrl →
      ∃ error, request env webhookKey resolve delivery = .error error
  kept : ∀ answers, Answers env resolve rawUrl answers →
    ((given env resolve rawUrl).map SocketAddr.ip).filter isV4 =
      answers.filter fun ip => isV4 ip ∧ ¬ Blocked ip

/-- The given list is the filtered answers, whatever else fails. -/
theorem given_of_answers {env : Crates} {resolve : Resolver} {rawUrl : String}
    {answers : List IpAddr} (h : Answers env resolve rawUrl answers) :
    (given env resolve rawUrl).map SocketAddr.ip = answers.filter isAllowedDestination := by
  obtain ⟨host, port, hdest, hresolve⟩ := h
  simp only [given, pinnedAddresses, hdest, resolveAllowedWith, hresolve]
  by_cases hnone : answers.filter isAllowedDestination = []
  · simp [hnone, Except.mapError]
  · simp [hnone, Except.mapError, Function.comp_def]

theorem given_eq_nil {env : Crates} {resolve : Resolver} {rawUrl : String}
    (h : ∀ answers, ¬ Answers env resolve rawUrl answers) : given env resolve rawUrl = [] := by
  unfold given pinnedAddresses
  cases hdest : destination env rawUrl with
  | error e => rfl
  | ok target =>
    cases hresolve : resolve target.1 target.2 with
    | error e => simp [resolveAllowedWith, hresolve, Except.mapError]
    | ok answers => exact absurd ⟨target.1, target.2, hdest, hresolve⟩ (h answers)

/-- No address, no request. -/
theorem request_error_of_given {env : Crates} {webhookKey : Option Bytes} {resolve : Resolver}
    {delivery : Delivery} (h : given env resolve delivery.url = []) :
    ∃ error, request env webhookKey resolve delivery = .error error := by
  have hpinned : ∃ error, pinnedAddresses env resolve delivery.url = .error error := by
    cases hp : pinnedAddresses env resolve delivery.url with
    | error e => exact ⟨e, rfl⟩
    | ok addresses =>
      simp only [given, hp] at h
      subst h
      simp only [pinnedAddresses] at hp
      split at hp
      · cases hp
      · simp only [resolveAllowedWith] at hp
        split at hp
        · cases hp
        · split at hp
          · cases hp
          · next hne =>
            simp only [Except.mapError, Except.ok.injEq] at hp
            simp [hp] at hne
  obtain ⟨error, he⟩ := hpinned
  exact ⟨error, by simp [request, pinnedClient, he, bind, Except.bind]⟩

/-- A 6to4 address of a blocked IPv4 address is contacted. -/
theorem not_policy_of_sixToFour {env : Crates} {webhookKey : Option Bytes} {resolve : Resolver}
    {rawUrl : String} {answers : List IpAddr} (hanswers : Answers env resolve rawUrl answers)
    {ip : IpAddr} (hip : ip ∈ answers) (hsix : SixToFourBlocked ip) :
    ¬ Policy env webhookKey resolve rawUrl := by
  intro h
  obtain ⟨hallowed, hblocked⟩ := (allowed_and_blocked_iff ip).mpr hsix
  have hmem : ip ∈ (given env resolve rawUrl).map SocketAddr.ip := by
    rw [given_of_answers hanswers]
    exact List.mem_filter.mpr ⟨hip, hallowed⟩
  obtain ⟨a, ha, rfl⟩ := List.mem_map.mp hmem
  obtain ⟨-, -, -, hclean⟩ := h.clean a ha
  exact hclean hblocked

/-- The policy holds exactly when no resolver answer is a 6to4 address of a
blocked IPv4 address. -/
theorem policy_iff (env : Crates) (webhookKey : Option Bytes) (resolve : Resolver)
    (rawUrl : String) : Policy env webhookKey resolve rawUrl ↔
      ∀ answers, Answers env resolve rawUrl answers → ∀ ip ∈ answers, ¬ SixToFourBlocked ip := by
  constructor
  · exact fun h answers hanswers ip hip hsix => not_policy_of_sixToFour hanswers hip hsix h
  · intro h
    have hclean : ∀ answers, Answers env resolve rawUrl answers → ∀ ip ∈ answers,
        isAllowedDestination ip = true → ¬ Blocked ip := by
      intro answers hanswers ip hip hallowed hblocked
      exact h answers hanswers ip hip ((allowed_and_blocked_iff ip).mp ⟨hallowed, hblocked⟩)
    refine ⟨fun a ha => ?_, fun hall delivery hurl => ?_, fun answers hanswers => ?_⟩
    · by_cases hnone : ∀ answers, ¬ Answers env resolve rawUrl answers
      · rw [given_eq_nil hnone] at ha
        cases ha
      · obtain ⟨answers, hanswers⟩ := not_forall_not.mp hnone
        have hmem := List.mem_map_of_mem (f := SocketAddr.ip) ha
        rw [given_of_answers hanswers, List.mem_filter] at hmem
        exact ⟨answers, hanswers, hmem.1, hclean answers hanswers _ hmem.1 hmem.2⟩
    · subst hurl
      refine request_error_of_given ?_
      by_cases hnone : ∀ answers, ¬ Answers env resolve delivery.url answers
      · exact given_eq_nil hnone
      · obtain ⟨answers, hanswers⟩ := not_forall_not.mp hnone
        rw [← List.map_eq_nil_iff, given_of_answers hanswers, List.filter_eq_nil_iff]
        intro ip hip hallowed
        exact hclean answers hanswers ip hip hallowed (hall answers hanswers ip hip)
    · rw [given_of_answers hanswers, List.filter_filter]
      refine List.filter_congr fun ip _ => ?_
      cases ip with
      | v6 ip => simp [isV4]
      | v4 ip =>
        have hiff := isAllowedV4_iff ip
        by_cases hblocked : Cidr.InAny blockedV4 ip.toNat <;>
          simp_all [isV4, isAllowedDestination, Blocked]

/-- The 6to4 address of 127.0.0.1, as a resolver may answer it. -/
def loopbackAnswer : Resolver := fun _ _ => .ok [.v6 ⟨0x2002, 0x7f00, 0x0001, 0, 0, 0, 0, 0⟩]

theorem not_policy_sixToFour_loopback :
    ¬ Policy Sample.crates none loopbackAnswer "https://hooks.example/in" := by
  refine not_policy_of_sixToFour ⟨"hooks.example", 443, by rfl, rfl⟩ List.mem_cons_self ?_
  simp only [SixToFourBlocked]
  decide

end Zbierak.Destinations
