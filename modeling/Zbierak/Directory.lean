import Zbierak.Server

/-!
# Projects and memberships over runs

Two operations write projects or memberships: a project is created with its
owner, and a member's role is set. Both respect the unique indexes, and a
project keeps its slug for good.
-/
namespace Zbierak.Directory

open Server

structure SameDirectory (db db' : Db) : Prop where
  projects : db'.projects = db.projects
  memberships : db'.memberships = db.memberships

inductive DirectoryChange (db db' : Db) : Prop where
  | same (h : SameDirectory db db')
  | projectCreated (project : Project) (userId : Int)
      (hslug : ∀ id p, db.projects.get? id = some p → nocaseEq p.slug project.slug = false)
      (hmember : ∀ m ∈ db.memberships, ¬ (m.projectId = db.projects.nextId ∧ m.userId = userId))
      (hprojects : db'.projects = db.projects.insert project)
      (hmemberships : db'.memberships = db.memberships ++ [⟨db.projects.nextId, userId, .owner⟩])
  | memberSet (projectId userId : Int) (role : ProjectRole) (hprojects : db'.projects = db.projects)
      (hmemberships :
        db'.memberships = Projects.upsertMembership db.memberships projectId userId role)

theorem DirectoryChange.refl (db : Db) : DirectoryChange db db := .same ⟨rfl, rfl⟩

theorem change_commit {db : Db} {α : Type} {tx : Tx α}
    (h : ∀ db' a, tx db = .ok (db', a) → DirectoryChange db db') :
    DirectoryChange db (silent (commit tx db)).2 :=
  commit_snd (DirectoryChange db) (.refl db) h

theorem exec_directory (cfg : Setup) (now : Int) (db : Db) (op : Op) :
    DirectoryChange db (exec cfg now db op).2 := by
  have hframe := exec_frame cfg now db op
  cases op with
  | request r =>
    cases r with
    | createProject session form =>
      refine change_commit fun db' a htx => ?_
      obtain ⟨name, slug, description, hslug, hmember, rfl⟩ := Projects.createProject_ok htx
      exact .projectCreated ⟨slug, name, description, session.userId⟩ session.userId hslug hmember rfl
        rfl
    | writeMember request argon2 =>
      refine change_commit fun db' a htx => ?_
      obtain ⟨-, -, users, -, rfl⟩ := Projects.writeMember_ok htx
      exact .memberSet request.projectId _ request.role rfl rfl
    | _ => exact .same ⟨hframe .projects rfl, hframe .memberships rfl⟩
  | worker w => exact .same ⟨hframe .projects rfl, hframe .memberships rfl⟩

theorem slugs_insert {projects : Table Project} {project : Project}
    (hold : ∀ a b p q, projects.get? a = some p → projects.get? b = some q →
      nocaseEq p.slug q.slug = true → a = b)
    (hslug : ∀ id p, projects.get? id = some p → nocaseEq p.slug project.slug = false) :
    ∀ a b p q, (projects.insert project).get? a = some p → (projects.insert project).get? b = some q →
      nocaseEq p.slug q.slug = true → a = b := by
  intro a b p q hp hq hpq
  rw [Table.get?_insert] at hp hq
  split at hp <;> split at hq
  · next ha hb => rw [ha, hb]
  · cases hp
    rw [nocaseEq_iff, eq_comm, ← nocaseEq_iff, hslug b q hq] at hpq
    cases hpq
  · cases hq
    rw [hslug a p hp] at hpq
    cases hpq
  · exact hold a b p q hp hq hpq

theorem upsertMembership_unique {memberships : List Membership} {projectId userId : Int}
    {role : ProjectRole}
    (hold : ∀ m ∈ memberships, ∀ n ∈ memberships,
      (m.projectId, m.userId) = (n.projectId, n.userId) → m = n) :
    ∀ m ∈ Projects.upsertMembership memberships projectId userId role,
      ∀ n ∈ Projects.upsertMembership memberships projectId userId role,
        (m.projectId, m.userId) = (n.projectId, n.userId) → m = n := by
  unfold Projects.upsertMembership
  refine Upsert.upsert_unique ?_ ?_ hold
  · exact fun _ => rfl
  · exact fun m => by simp

/-- Both operations that write projects or memberships keep the unique keys. -/
theorem DirectoryChange.uniqueKeys {db db' : Db} (h : DirectoryChange db db')
    (hkeys : db.UniqueKeys) : db'.UniqueKeys := by
  cases h with
  | same h =>
    constructor
    · rw [h.projects]
      exact hkeys.slugs
    · rw [h.memberships]
      exact hkeys.memberships
  | projectCreated project userId hslug hmember hprojects hmemberships =>
    constructor
    · rw [hprojects]
      exact slugs_insert hkeys.slugs hslug
    · rw [hmemberships]
      intro m hm n hn hproject huser
      rcases List.mem_append.mp hm with hm | hm <;> rcases List.mem_append.mp hn with hn | hn
      · exact hkeys.memberships m hm n hn hproject huser
      · obtain rfl := List.mem_singleton.mp hn
        exact absurd ⟨hproject, huser⟩ (hmember m hm)
      · obtain rfl := List.mem_singleton.mp hm
        exact absurd ⟨hproject.symm, huser.symm⟩ (hmember n hn)
      · rw [List.mem_singleton.mp hm, List.mem_singleton.mp hn]
  | memberSet projectId userId role hprojects hmemberships =>
    constructor
    · rw [hprojects]
      exact hkeys.slugs
    · rw [hmemberships]
      intro m hm n hn hproject huser
      refine upsertMembership_unique (fun a ha b hb hab => ?_) m hm n hn (by rw [hproject, huser])
      exact hkeys.memberships a ha b hb (congrArg Prod.fst hab) (congrArg Prod.snd hab)

/-- Every store the service reaches has the unique keys. -/
theorem uniqueKeys_after (cfg : Setup) (ops : List (Int × Op)) :
    (after cfg ops Db.empty).UniqueKeys :=
  after_invariant (fun now db op h => (exec_directory cfg now db op).uniqueKeys h) ops
    ⟨by simp [Db.empty], by simp [Db.empty]⟩

/-- A project keeps its row. -/
theorem DirectoryChange.project {db db' : Db} (h : DirectoryChange db db') {projectId : Int}
    {p : Project} (hp : db.projects.get? projectId = some p) :
    db'.projects.get? projectId = some p := by
  cases h with
  | same h => rw [h.projects, hp]
  | projectCreated project userId hslug hmember hprojects hmemberships =>
    have hlt := db.projects.le_seq_of_get? hp
    rw [hprojects, Table.get?_insert, if_neg (by simp only [Table.nextId]; omega), hp]
  | memberSet projectId userId role hprojects hmemberships => rw [hprojects, hp]

theorem DirectoryChange.names {db db' : Db} (h : DirectoryChange db db') {slug : String}
    {projectId : Int} (hn : Auth.Names db slug projectId) : Auth.Names db' slug projectId := by
  obtain ⟨p, hp, hslug⟩ := hn
  exact ⟨p, h.project hp, hslug⟩

end Zbierak.Directory
