import Zbierak.Directory
import Zbierak.Ownership

/-!
# Privileges of project members

Requests that create projects and set roles, one at a time. A request to set a
role reads the role of its actor and that of its target and refuses an actor who
is not an owner as soon as one of the roles involved is above `developer`.
-/
namespace Zbierak.Privileges

open Auth (membershipRole Names)
open Projects (targetUser)

/-- `create_member` without anything in between its phases. -/
def createMember (session : Auth.Session) (slug : String) (form : Projects.MemberForm)
    (argon2 : Except String String) : Tx Unit := fun db => do
  let authorized ← Projects.authorizeMember session slug form db
  let checked ← Projects.readActor authorized db
  Projects.writeMember checked argon2 db

inductive Label where
  | createMember (session : Auth.Session) (slug : String) (form : Projects.MemberForm)
      (argon2 : Except String String)
  | createProject (session : Auth.Session) (form : Projects.ProjectForm)

def Label.actorId : Label → Int
  | .createMember session _ _ _ | .createProject session _ => session.userId

/-- A request is an answer and the store it leaves. -/
def exec (db : Db) : Label → Except AppError Unit × Db
  | .createMember session slug form argon2 => commit (createMember session slug form argon2) db
  | .createProject session form =>
    let result := commit (Projects.createProject session form) db
    (result.1.map fun _ => (), result.2)

def step (db : Db) (label : Label) : Option Db := some (exec db label).2

/-- Admins and owners. -/
def Elevated (role : Option ProjectRole) : Prop := ∃ r, role = some r ∧ .admin ≤ r

instance : DecidablePred Elevated
  | none => isFalse nofun
  | some r => decidable_of_iff (.admin ≤ r) (by simp [Elevated])

/-- What an accepted request to set a role did, and the policy it met. -/
structure Granted (db db' : Db) (actorId : Int) (slug : String) (form : Projects.MemberForm)
    (projectId : Int) (actor role : ProjectRole) : Prop where
  project : Names db slug projectId
  read : membershipRole db projectId actorId = some actor
  manager : .admin ≤ actor
  roles : ∀ p u, membershipRole db' p u =
    if p = projectId ∧ u = targetUser db form then some role else membershipRole db p u
  elevated : Elevated (membershipRole db projectId (targetUser db form)) ∨ .admin ≤ role →
    actor = .owner
  self : targetUser db form = actorId → role = .owner

/-- The user's role in every project stays or rises. -/
def RoleKept (db db' : Db) (userId : Int) : Prop :=
  ∀ projectId role, membershipRole db projectId userId = some role →
    ∃ role', membershipRole db' projectId userId = some role' ∧ role ≤ role'

/-- In every project whose owner the user is not, the admins and the owners are
the same before and after, with the same roles. -/
def ElevatedKept (db db' : Db) (userId : Int) : Prop :=
  ∀ projectId p, db.projects.get? projectId = some p →
    membershipRole db projectId userId ≠ some .owner →
      ∀ u, Elevated (membershipRole db projectId u) ∨ Elevated (membershipRole db' projectId u) →
        membershipRole db' projectId u = membershipRole db projectId u

/-- The policy that each request meets. -/
structure Policy (db : Db) (label : Label) : Prop where
  granted : ∀ session slug form argon2, label = .createMember session slug form argon2 →
    (∃ e, exec db label = (.error e, db)) ∨
      ∃ projectId actor role, Granted db (exec db label).2 session.userId slug form projectId actor role
  own : RoleKept db (exec db label).2 label.actorId
  elevated : ElevatedKept db (exec db label).2 label.actorId

theorem readActor_ok {request : Projects.AuthorizedMember} {db : Db} {checked : Projects.CheckedMember}
    (h : Projects.readActor request db = .ok checked) :
    ∃ actor, membershipRole db request.projectId request.actorId = some actor ∧
      (.admin ≤ request.role → actor = .owner) ∧
      checked = ⟨request.actorId, actor, request.projectId, request.role, request.form⟩ := by
  unfold Projects.readActor at h
  split at h
  · cases h
  · next actor hactor =>
    split at h
    · cases h
    · next hpolicy =>
      obtain ⟨-, -, h⟩ := Except.bind_ok h
      cases h
      refine ⟨actor, hactor, fun hrole => ?_, rfl⟩
      exact ProjectRole.eq_owner fun hlt => hpolicy ⟨hlt, hrole⟩

theorem authorizeMember_ok {session : Auth.Session} {slug : String} {form : Projects.MemberForm}
    {db : Db} {request : Projects.AuthorizedMember}
    (h : Projects.authorizeMember session slug form db = .ok request) :
    Auth.requireProjectRole db session.userId slug .admin = .ok request.projectId ∧
      request.actorId = session.userId ∧ request.form = form := by
  obtain ⟨-, -, h⟩ := Except.bind_ok h
  obtain ⟨projectId, hproject, h⟩ := Except.bind_ok h
  split at h
  · cases h
  · cases h
    exact ⟨hproject, rfl, rfl⟩

theorem createMember_granted {db db' : Db} (hkeys : db.UniqueKeys) {session : Auth.Session}
    {slug : String} {form : Projects.MemberForm} {argon2 : Except String String}
    (h : createMember session slug form argon2 db = .ok (db', ())) :
    ∃ projectId actor role, Granted db db' session.userId slug form projectId actor role := by
  obtain ⟨request, hauthorized, hrest⟩ := Except.bind_ok h
  obtain ⟨checked, hchecked, hwrite⟩ := Except.bind_ok hrest
  obtain ⟨hproject, hactorId, hform⟩ := authorizeMember_ok hauthorized
  obtain ⟨actor, hactor, hrole, rfl⟩ := readActor_ok hchecked
  obtain ⟨hpolicy, hself, users, -, rfl⟩ := Projects.writeMember_ok hwrite
  obtain ⟨hnames, role, hmanager, hmember⟩ := Auth.requireProjectRole_ok hproject
  dsimp only at hpolicy hself
  rw [hform] at hpolicy hself
  rw [hactorId] at hactor hself
  refine ⟨request.projectId, actor, request.role, hnames, hactor, ?_, ?_, ?_, hself⟩
  · rw [Auth.membershipRole_of_member hkeys hmember, Option.some.injEq] at hactor
    exact hactor ▸ hmanager
  · intro p u
    simp only [Ownership.membershipRole_eq, Ownership.roleIn_upsertMembership, hform]
  · rintro (⟨old, hold, hadmin⟩ | hadmin)
    · exact ProjectRole.eq_owner fun hlt => ProjectRole.not_lt.mpr hadmin (hpolicy hlt old hold)
    · exact hrole hadmin

/-- An actor can only overwrite their own role with that of an owner. -/
theorem Granted.roleKept {db db' : Db} {actorId projectId : Int} {slug : String}
    {form : Projects.MemberForm} {actor role : ProjectRole}
    (h : Granted db db' actorId slug form projectId actor role) : RoleKept db db' actorId := by
  intro p old hold
  rw [h.roles]
  split
  · next heq => exact ⟨role, rfl, h.self heq.2.symm ▸ ProjectRole.le_owner old⟩
  · exact ⟨old, hold, Nat.le_refl _⟩

theorem Granted.elevatedKept {db db' : Db} {actorId projectId : Int} {slug : String}
    {form : Projects.MemberForm} {actor role : ProjectRole}
    (h : Granted db db' actorId slug form projectId actor role) : ElevatedKept db db' actorId := by
  intro p project hproject hactor u helevated
  rw [h.roles] at helevated ⊢
  split
  · next heq =>
    rw [if_pos heq] at helevated
    obtain ⟨rfl, rfl⟩ := heq
    refine absurd (h.elevated ?_) fun howner => hactor (howner ▸ h.read)
    rcases helevated with hold | ⟨r, hr, hadmin⟩
    · exact .inl hold
    · cases hr
      exact .inr hadmin
  · rfl

/-- A new project adds one membership, in no project there was before. -/
theorem createProject_roles {db db' : Db} {session : Auth.Session} {form : Projects.ProjectForm}
    {created : Int} (h : Projects.createProject session form db = .ok (db', created)) (p u : Int) :
    membershipRole db' p u =
      if p = db.projects.nextId ∧ u = session.userId then some .owner else membershipRole db p u := by
  obtain ⟨name, slug, description, -, hfree, rfl⟩ := Projects.createProject_ok h
  have hnone := Ownership.roleIn_eq_none.mpr hfree
  simp only [Ownership.membershipRole_eq, Ownership.roleIn_append, Ownership.roleIn_singleton]
  split
  · next heq => rw [heq.1, heq.2, hnone, Option.none_or]
  · rw [Option.or_none]

theorem RoleKept.refl (db : Db) (userId : Int) : RoleKept db db userId :=
  fun _ role h => ⟨role, h, Nat.le_refl _⟩

theorem ElevatedKept.refl (db : Db) (userId : Int) : ElevatedKept db db userId :=
  fun _ _ _ _ _ _ => rfl

theorem policy_createMember {db : Db} (hkeys : db.UniqueKeys) (session : Auth.Session)
    (slug : String) (form : Projects.MemberForm) (argon2 : Except String String) :
    Policy db (.createMember session slug form argon2) := by
  rcases commit_cases (createMember session slug form argon2) db with ⟨db', a, htx, hc⟩ | ⟨e, -, hc⟩
  · have hexec : exec db (.createMember session slug form argon2) = (.ok a, db') := hc
    obtain ⟨projectId, actor, role, hgranted⟩ := createMember_granted hkeys htx
    refine ⟨fun _ _ _ _ h => ?_, ?_, ?_⟩
    · cases h
      rw [hexec]
      exact .inr ⟨projectId, actor, role, hgranted⟩
    · rw [hexec]
      exact hgranted.roleKept
    · rw [hexec]
      exact hgranted.elevatedKept
  · have hexec : exec db (.createMember session slug form argon2) = (.error e, db) := hc
    refine ⟨fun _ _ _ _ h => ?_, ?_, ?_⟩
    · cases h
      exact .inl ⟨e, hexec⟩
    · rw [hexec]
      exact .refl db _
    · rw [hexec]
      exact .refl db _

theorem policy_createProject (db : Db) (session : Auth.Session) (form : Projects.ProjectForm) :
    Policy db (.createProject session form) := by
  refine ⟨nofun, ?_, ?_⟩ <;>
    rcases commit_cases (Projects.createProject session form) db with
      ⟨db', created, htx, hc⟩ | ⟨e, -, hc⟩
  · intro p role hrole
    simp only [exec, hc, createProject_roles htx]
    split
    · exact ⟨.owner, rfl, ProjectRole.le_owner role⟩
    · exact ⟨role, hrole, Nat.le_refl _⟩
  · simp only [exec, hc]
    exact .refl db _
  · intro p project hproject _ u _
    have hne : p ≠ db.projects.nextId := by
      rintro rfl
      simp at hproject
    simp only [exec, hc, createProject_roles htx, hne, false_and, if_false]
  · simp only [exec, hc]
    exact .refl db _

theorem policy_exec {db : Db} (hkeys : db.UniqueKeys) (label : Label) : Policy db label := by
  cases label with
  | createMember session slug form argon2 => exact policy_createMember hkeys session slug form argon2
  | createProject session form => exact policy_createProject db session form

theorem exec_directory (db : Db) (label : Label) : Directory.DirectoryChange db (exec db label).2 := by
  cases label with
  | createMember session slug form argon2 =>
    change Directory.DirectoryChange db
      (Server.silent (commit (createMember session slug form argon2) db)).2
    refine Directory.change_commit fun db' a htx => ?_
    obtain ⟨request, -, hrest⟩ := Except.bind_ok htx
    obtain ⟨checked, -, hwrite⟩ := Except.bind_ok hrest
    obtain ⟨-, -, users, -, rfl⟩ := Projects.writeMember_ok hwrite
    exact .memberSet checked.projectId _ checked.role rfl rfl
  | createProject session form =>
    refine Directory.change_commit fun db' a htx => ?_
    obtain ⟨name, slug, description, hslug, hmember, rfl⟩ := Projects.createProject_ok htx
    exact .projectCreated ⟨slug, name, description, session.userId⟩ session.userId hslug hmember rfl rfl

theorem policy_run {db₀ : Db} (hkeys : db₀.UniqueKeys) (labels : List Label) :
    Runs.Along step Policy labels db₀ := by
  induction labels generalizing db₀ with
  | nil => trivial
  | cons label labels ih =>
    refine ⟨policy_exec hkeys label, fun db hdb => ih ?_⟩
    obtain rfl : (exec db₀ label).2 = db := by simpa [step] using hdb
    exact (exec_directory db₀ label).uniqueKeys hkeys

/-- Users who do not own the project at the start cannot together change who its
admins and owners are. -/
theorem elevated_run {db₀ db : Db} (hkeys : db₀.UniqueKeys) {labels : List Label}
    (hr : Runs.run step labels db₀ = some db) {projectId : Int} {p : Project}
    (hp : db₀.projects.get? projectId = some p)
    (hactors : ∀ label ∈ labels, membershipRole db₀ projectId label.actorId ≠ some .owner) (u : Int)
    (helevated : Elevated (membershipRole db₀ projectId u) ∨ Elevated (membershipRole db projectId u)) :
    membershipRole db projectId u = membershipRole db₀ projectId u := by
  induction labels generalizing db₀ with
  | nil =>
    obtain rfl : db₀ = db := by simpa using hr
    rfl
  | cons label labels ih =>
    obtain ⟨db₁, hstep, hr⟩ := Runs.run_cons_some.mp hr
    obtain rfl : (exec db₀ label).2 = db₁ := by simpa [step] using hstep
    have hdirectory := exec_directory db₀ label
    have hkept := (policy_exec hkeys label).elevated projectId p hp (hactors label List.mem_cons_self)
    have hactors' : ∀ l ∈ labels,
        membershipRole (exec db₀ label).2 projectId l.actorId ≠ some .owner := by
      intro l hl howner
      have hsame := hkept l.actorId (.inr ⟨.owner, howner, by decide⟩)
      exact hactors l (List.mem_cons_of_mem label hl) (hsame ▸ howner)
    have hlast := ih (hdirectory.uniqueKeys hkeys) hr (hdirectory.project hp) hactors'
    rcases helevated with hfirst | hend
    · have hsame := hkept u (.inl hfirst)
      exact (hlast (.inl (hsame ▸ hfirst))).trans hsame
    · have hsame := hlast (.inr hend)
      exact hsame.trans (hkept u (.inr (hsame ▸ hend)))

/-- Along every run each request meets the policy; and whatever requests members
below the owner role make, the admins and owners of the project stay. -/
theorem no_escalation {db₀ db : Db} (hkeys : db₀.UniqueKeys) {labels : List Label}
    (hr : Runs.run step labels db₀ = some db) :
    Runs.Along step Policy labels db₀ ∧
      ∀ projectId p, db₀.projects.get? projectId = some p →
        (∀ label ∈ labels, membershipRole db₀ projectId label.actorId ≠ some .owner) →
        ∀ u, Elevated (membershipRole db₀ projectId u) ∨ Elevated (membershipRole db projectId u) →
          membershipRole db projectId u = membershipRole db₀ projectId u :=
  ⟨policy_run hkeys labels, fun _ _ hp hactors u helevated =>
    elevated_run hkeys hr hp hactors u helevated⟩

/-- Ada owns the project, Bob is an admin and Cy a developer. -/
def Sample.demo : Db := { Db.empty with
  users := ((Table.empty.insert ⟨"ada@example.org", "Ada", ""⟩).insert
    ⟨"bob@example.org", "Bob", ""⟩).insert ⟨"cy@example.org", "Cy", ""⟩
  projects := Table.empty.insert ⟨"demo", "Demo", "", 1⟩
  memberships := [⟨1, 1, .owner⟩, ⟨1, 2, .admin⟩, ⟨1, 3, .developer⟩] }

def Sample.form (email role : String) : Projects.MemberForm := ⟨"csrf", email, "Name", "", role⟩

/-- Bob tries to become an owner, to demote Ada and to promote Cy, and makes Cy
a viewer. -/
def Sample.attempts : List Label :=
  [("bob@example.org", "owner"), ("ada@example.org", "viewer"), ("cy@example.org", "admin"),
    ("cy@example.org", "viewer")].map fun (email, role) =>
      .createMember ⟨2, "csrf"⟩ "demo" (Sample.form email role) (.error "")

theorem Sample.demo_uniqueKeys : Sample.demo.UniqueKeys where
  slugs a b p q hp hq hpq := by
    have hrows : ∀ x ∈ Sample.demo.projects.rows, ∀ y ∈ Sample.demo.projects.rows,
        nocaseEq x.2.slug y.2.slug = true → x.1 = y.1 := by decide
    exact hrows (a, p) ((Table.get?_eq_some _).mp hp) (b, q) ((Table.get?_eq_some _).mp hq) hpq
  memberships := by decide

set_option maxRecDepth 20000 in
theorem no_escalation_attempts : ∃ db, Runs.run step Sample.attempts Sample.demo = some db ∧
    membershipRole db 1 1 = some .owner ∧ membershipRole db 1 3 = some .viewer := by
  have hrun : ∃ db ∈ Runs.run step Sample.attempts Sample.demo,
      membershipRole db 1 3 = some .viewer := by decide +kernel
  obtain ⟨db, hdb, hcy⟩ := hrun
  have hkept := (no_escalation Sample.demo_uniqueKeys hdb).2 1 _ rfl (by decide +kernel) 1
    (.inl ⟨.owner, rfl, by decide⟩)
  exact ⟨db, hdb, hkept.trans rfl, hcy⟩

end Zbierak.Privileges
