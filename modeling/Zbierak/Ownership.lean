import Zbierak.Lib.Runs
import Zbierak.Projects

/-!
# Project ownership under concurrent membership requests

A request to set a member's role reads the role of its actor, and later writes
in a transaction that trusts what was read. The steps of any number of such
requests and of project creations interleave here. Owners can only be lost to a
request whose actor stopped being an owner between the two.
-/
namespace Zbierak.Ownership

/-- The store and the membership requests under way, by the phase they are in. -/
structure World where
  db : Db
  authorized : List Projects.AuthorizedMember
  checked : List Projects.CheckedMember

inductive Label where
  | authorizeMember (session : Auth.Session) (slug : String) (form : Projects.MemberForm)
  | readActor (request : Projects.AuthorizedMember)
  | writeMember (request : Projects.CheckedMember) (argon2 : Except String String)
  | createProject (session : Auth.Session) (form : Projects.ProjectForm)

/-- One step of one request. A request that fails is gone. -/
def step (w : World) : Label → Option World
  | .authorizeMember session slug form =>
    match Projects.authorizeMember session slug form w.db with
    | .ok request => some { w with authorized := request :: w.authorized }
    | .error _ => some w
  | .readActor request =>
    if request ∈ w.authorized then
      match Projects.readActor request w.db with
      | .ok checked => some { w with
          authorized := w.authorized.erase request
          checked := checked :: w.checked }
      | .error _ => some { w with authorized := w.authorized.erase request }
    else none
  | .writeMember request argon2 =>
    if request ∈ w.checked then
      some { w with
        db := (commit (Projects.writeMember request argon2) w.db).2
        checked := w.checked.erase request }
    else none
  | .createProject session form =>
    some { w with db := (commit (Projects.createProject session form) w.db).2 }

/-- Every project has a membership with the owner role. -/
def HasOwners (db : Db) : Prop :=
  ∀ projectId p, db.projects.get? projectId = some p →
    ∃ userId, Auth.membershipRole db projectId userId = some .owner

theorem hasOwners_iff {db : Db} : HasOwners db ↔ ∀ r ∈ db.projects.rows,
    ∃ m ∈ db.memberships, Auth.membershipRole db r.1 m.userId = some .owner := by
  constructor
  · intro h r hr
    obtain ⟨userId, howner⟩ := h r.1 r.2 (db.projects.get?_eq_some.mpr hr)
    obtain ⟨m, hm, hrole⟩ := Option.map_eq_some_iff.mp howner
    have hkey := List.find?_some hm
    simp only [decide_eq_true_eq] at hkey
    exact ⟨m, List.mem_of_find?_eq_some hm, by rw [hkey.2]; exact howner⟩
  · intro h projectId p hp
    obtain ⟨m, -, howner⟩ := h _ (db.projects.get?_eq_some.mp hp)
    exact ⟨m.userId, howner⟩

instance (db : Db) : Decidable (HasOwners db) := decidable_of_iff' _ hasOwners_iff

/-- A write that takes the owner role from somebody else, trusting that its
actor is an owner, finds the actor to be one still. -/
def ActorStillOwner (w : World) : Label → Prop
  | .writeMember request _ =>
    let target := Projects.targetUser w.db request.form
    request.actor = .owner → request.role ≠ .owner → target ≠ request.actorId →
      Auth.membershipRole w.db request.projectId target = some .owner →
        Auth.membershipRole w.db request.projectId request.actorId = some .owner
  | _ => True

instance (w : World) : ∀ label, Decidable (ActorStillOwner w label)
  | .writeMember _ _ => by unfold ActorStillOwner; infer_instance
  | .authorizeMember _ _ _ | .readActor _ | .createProject _ _ => isTrue trivial

def roleIn (memberships : List Membership) (projectId userId : Int) : Option ProjectRole :=
  (memberships.find? fun m => m.projectId = projectId ∧ m.userId = userId).map Membership.role

theorem membershipRole_eq (db : Db) (projectId userId : Int) :
    Auth.membershipRole db projectId userId = roleIn db.memberships projectId userId := rfl

theorem roleIn_append (xs ys : List Membership) (projectId userId : Int) :
    roleIn (xs ++ ys) projectId userId =
      (roleIn xs projectId userId).or (roleIn ys projectId userId) := by
  simp only [roleIn, List.find?_append, Option.map_or]

theorem roleIn_singleton (projectId userId : Int) (role : ProjectRole) (p u : Int) :
    roleIn [⟨projectId, userId, role⟩] p u =
      if p = projectId ∧ u = userId then some role else none := by
  by_cases h : p = projectId ∧ u = userId
  · simp [roleIn, h]
  · have hne : ¬ (projectId = p ∧ userId = u) := fun heq => h ⟨heq.1.symm, heq.2.symm⟩
    simp [roleIn, h, hne]

theorem roleIn_eq_none {memberships : List Membership} {projectId userId : Int} :
    roleIn memberships projectId userId = none ↔
      ∀ m ∈ memberships, ¬ (m.projectId = projectId ∧ m.userId = userId) := by
  simp [roleIn]

/-- The membership table is a map from pairs to roles, and the upsert overwrites
one pair. -/
theorem roleIn_upsertMembership (memberships : List Membership) (projectId userId : Int)
    (role : ProjectRole) (p u : Int) :
    roleIn (Projects.upsertMembership memberships projectId userId role) p u =
      if p = projectId ∧ u = userId then some role else roleIn memberships p u := by
  unfold roleIn Projects.upsertMembership
  split
  · next heq =>
    obtain ⟨rfl, rfl⟩ := heq
    rw [Upsert.find?_upsert_self (by simp) (by simp)]
    cases memberships.find? fun m => m.projectId = p ∧ m.userId = u <;> rfl
  · next hne =>
    have hne' : ¬ (projectId = p ∧ userId = u) := fun heq => hne ⟨heq.1.symm, heq.2.symm⟩
    rw [Upsert.find?_upsert_other]
    · rintro m hm
      simp only [decide_eq_true_eq] at hm
      obtain ⟨rfl, rfl⟩ := hm
      simp [hne']
    · simp [hne']

/-- A committed write keeps an owner in every project as long as its actor is
still one when it takes the role from somebody else. -/
theorem hasOwners_writeMember {db db' : Db} {request : Projects.CheckedMember}
    {argon2 : Except String String} (howners : HasOwners db)
    (hactor : request.actor = .owner → request.role ≠ .owner →
      Projects.targetUser db request.form ≠ request.actorId →
      Auth.membershipRole db request.projectId (Projects.targetUser db request.form) = some .owner →
        Auth.membershipRole db request.projectId request.actorId = some .owner)
    (h : Projects.writeMember request argon2 db = .ok (db', ())) : HasOwners db' := by
  obtain ⟨hpolicy, hself, users, -, rfl⟩ := Projects.writeMember_ok h
  generalize Projects.targetUser db request.form = target at hpolicy hself hactor
  intro projectId p hp
  obtain ⟨userId, howner⟩ := howners projectId p hp
  simp only [membershipRole_eq, roleIn_upsertMembership] at howner hactor hpolicy ⊢
  by_cases hhit : projectId = request.projectId ∧ userId = target
  · obtain ⟨rfl, rfl⟩ := hhit
    by_cases hrole : request.role = .owner
    · exact ⟨userId, by simp [hrole]⟩
    · have hne : userId ≠ request.actorId := fun heq => hrole (hself heq)
      have hread : request.actor = .owner :=
        ProjectRole.eq_owner fun hlt => absurd (hpolicy hlt .owner howner) (by decide)
      exact ⟨request.actorId, by simpa [hne.symm] using hactor hread hrole hne howner⟩
  · exact ⟨userId, by simpa [hhit] using howner⟩

/-- A new project belongs to its creator. -/
theorem hasOwners_createProject {db db' : Db} {session : Auth.Session}
    {form : Projects.ProjectForm} {created : Int} (howners : HasOwners db)
    (h : Projects.createProject session form db = .ok (db', created)) : HasOwners db' := by
  obtain ⟨name, slug, description, -, hfree, rfl⟩ := Projects.createProject_ok h
  have hnone : roleIn db.memberships db.projects.nextId session.userId = none :=
    roleIn_eq_none.mpr hfree
  intro projectId p hp
  dsimp only at hp
  rw [Table.get?_insert] at hp
  simp only [membershipRole_eq, roleIn_append, roleIn_singleton]
  split at hp
  · next heq =>
    exact ⟨session.userId, by simp [heq, hnone]⟩
  · obtain ⟨userId, howner⟩ := howners projectId p hp
    rw [membershipRole_eq] at howner
    exact ⟨userId, by simp [howner]⟩

theorem hasOwners_step {w w' : World} {label : Label} (howners : HasOwners w.db)
    (hactor : ActorStillOwner w label) (h : step w label = some w') : HasOwners w'.db := by
  cases label with
  | authorizeMember session slug form =>
    simp only [step] at h
    split at h <;> cases h <;> exact howners
  | readActor request =>
    simp only [step] at h
    split at h
    · split at h <;> cases h <;> exact howners
    · cases h
  | writeMember request argon2 =>
    simp only [step] at h
    split at h
    · cases h
      exact commit_snd HasOwners howners fun db' _ htx =>
        hasOwners_writeMember howners hactor htx
    · cases h
  | createProject session form =>
    cases h
    exact commit_snd HasOwners howners fun db' created htx => hasOwners_createProject howners htx

/-- In every interleaving, every project keeps an owner as long as no request
takes the owner role away on the strength of a role its actor has lost. -/
theorem owners_kept {labels : List Label} {w₀ w : World} (howners : HasOwners w₀.db)
    (hactors : Runs.Along step ActorStillOwner labels w₀)
    (hr : Runs.run step labels w₀ = some w) : HasOwners w.db :=
  Runs.along_invariant (I := fun w => HasOwners w.db)
    (fun _ _ _ howners hactor h => hasOwners_step howners hactor h) hr hactors howners

/-- Two owners of one project, and nothing under way. -/
def twoOwners : World where
  db := { Db.empty with
    users := (Table.empty.insert ⟨"ada@example.org", "Ada", ""⟩).insert
      ⟨"bob@example.org", "Bob", ""⟩
    projects := Table.empty.insert ⟨"demo", "Demo", "", 1⟩
    memberships := [⟨1, 1, .owner⟩, ⟨1, 2, .owner⟩] }
  authorized := []
  checked := []

def makeAdaViewer : Projects.MemberForm := ⟨"csrf", "ada@example.org", "Ada", "", "viewer"⟩

def makeBobViewer : Projects.MemberForm := ⟨"csrf", "bob@example.org", "Bob", "", "viewer"⟩

/-- Ada makes Bob a viewer. -/
def demotion : List Label := [
  .authorizeMember ⟨1, "csrf"⟩ "demo" makeBobViewer,
  .readActor ⟨1, 1, .viewer, makeBobViewer⟩,
  .writeMember ⟨1, .owner, 1, .viewer, makeBobViewer⟩ (.error "")]

set_option maxRecDepth 20000 in
theorem owners_kept_demotion :
    ∃ w, Runs.run step demotion twoOwners = some w ∧ HasOwners w.db := by
  have hr : (Runs.run step demotion twoOwners).isSome = true := by decide
  exact ⟨_, (Option.some_get hr).symm,
    owners_kept (by decide) (by decide) (Option.some_get hr).symm⟩

/-- Ada and Bob make each other viewers; both read that they are owners first. -/
def mutualDemotion : List Label := [
  .authorizeMember ⟨1, "csrf"⟩ "demo" makeBobViewer,
  .authorizeMember ⟨2, "csrf"⟩ "demo" makeAdaViewer,
  .readActor ⟨1, 1, .viewer, makeBobViewer⟩,
  .readActor ⟨2, 1, .viewer, makeAdaViewer⟩,
  .writeMember ⟨1, .owner, 1, .viewer, makeBobViewer⟩ (.error ""),
  .writeMember ⟨2, .owner, 1, .viewer, makeAdaViewer⟩ (.error "")]

set_option maxRecDepth 20000 in
/-- The second write trusts a role that the first one took away. -/
theorem mutualDemotion_leaves_no_owner : HasOwners twoOwners.db ∧
    ∃ w, Runs.run step mutualDemotion twoOwners = some w ∧ ¬ HasOwners w.db := by
  have hlost : ∃ w ∈ Runs.run step mutualDemotion twoOwners, ¬ HasOwners w.db := by decide
  exact ⟨by decide, hlost⟩

end Zbierak.Ownership
