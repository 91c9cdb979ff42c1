/-
Which fields take the roles of a declaration. Marks that name roles alone are read as the roles that they name
(`fieldRoles_eq`), so what is picked depends on which fields are marked and which names there are, and not on the
order of the fields (`resolve_perm`): `resolve_by_role`.

The fields can be gone through once, collecting for both roles at a time the fields that are marked and the one with
the conventional name (`collectFrom`). That comes to the same for all declarations, those with faults
included (`resolveInOnePass_eq`).
-/
import Docbase.Declaration
import Docbase.Proofs.Outcome
import Mathlib.Data.List.Nodup

namespace Docbase.Declaration

variable {role : Role} {f : Field} {d : Declared}

/-! ## One pass over the fields -/

/-- The field of a role, out of those that are marked with it and the one with its conventional name. -/
def choose (role : Role) : List String → Option String → Except Fault String
  | [name], _ => .ok name
  | [], some name => .ok name
  | [], none => .error (.roleMissing role)
  | _ :: _ :: _, _ => .error (.roleRepeated role)

/-- What has been collected on the way, by role. -/
structure Collected where
  marked : Role → List String
  named : Role → Option String

def Collected.none : Collected := ⟨fun _ => [], fun _ => .none⟩

def Collected.add (c : Collected) (f : String × Roles) : Collected where
  marked role := if f.2.has role then c.marked role ++ [f.1] else c.marked role
  named role := if f.1 = role.word then some f.1 else c.named role

/-- Reads the marks of one field after the other, up to the first fault. -/
def collectFrom (c : Collected) : List Field → Except Fault Collected
  | [] => .ok c
  | f :: rest =>
    match fieldRoles f with
    | .error e => .error e
    | .ok r => collectFrom (c.add (f.name, r)) rest

def resolveInOnePass (d : Declared) : Except Fault Picked := do
  if d.shape ≠ .record then throw .notRecord
  let c ← collectFrom .none d.fields
  let id ← choose .id (c.marked .id) (c.named .id)
  let tracker ← choose .tracker (c.marked .tracker) (c.named .tracker)
  let collection ← collectionOf d.marks
  return ⟨id, tracker, collection⟩

theorem choose_eq_ok_iff {marked : List String} {named : Option String} {name : String} :
    choose role marked named = .ok name ↔ marked = [name] ∨ marked = [] ∧ named = some name := by
  rcases marked with _ | ⟨first, _ | ⟨second, rest⟩⟩
  · cases named <;> simp [choose]
  · simp [choose]
  · simp [choose]

theorem choose_perm {marked marked' : List String} (h : marked.Perm marked') (named : Option String) :
    choose role marked named = choose role marked' named := by
  rcases marked with _ | ⟨first, _ | ⟨second, rest⟩⟩
  · rw [List.nil_perm.1 h]
  · rw [List.singleton_perm.1 h]
  · rcases marked' with _ | ⟨first', _ | ⟨second', rest'⟩⟩
    · cases h.length_eq
    · cases h.length_eq
    · rfl

theorem pick_eq_choose (role : Role) (fields : List (String × Roles)) : pick role fields =
    choose role ((fields.filter fun f => f.2.has role).map Prod.fst)
      (if fields.any fun f => f.1 = role.word then some role.word else none) := by
  rw [pick]
  generalize fields.filter (fun f => f.2.has role) = marked
  rcases marked with _ | ⟨first, _ | ⟨second, rest⟩⟩
  · dsimp only [List.map_nil]
    split <;> rfl
  · rfl
  · rfl

/-- What has been collected after some fields. -/
theorem Collected.foldl_add (c : Collected) (fields : List (String × Roles)) (role : Role) :
    (fields.foldl add c).marked role = c.marked role ++ (fields.filter fun f => f.2.has role).map Prod.fst ∧
      (fields.foldl add c).named role =
        if fields.any fun f => f.1 = role.word then some role.word else c.named role := by
  induction fields generalizing c with
  | nil => simp
  | cons f fields ih =>
    obtain ⟨hmarked, hnamed⟩ := ih (c.add f)
    rw [List.foldl_cons, hmarked, hnamed, List.filter_cons, List.any_cons, add]
    dsimp only
    constructor
    · split <;> simp
    · by_cases hname : f.1 = role.word
      · simp [hname]
      · rw [if_neg hname, decide_eq_false hname, Bool.false_or]

/-- The marks of all fields, read one field after the other. -/
def rolesOf (fields : List Field) : Except Fault (List (String × Roles)) :=
  fields.mapM fun f => (fieldRoles f).map fun r => (f.name, r)

theorem rolesOf_cons (f : Field) (fields : List Field) : rolesOf (f :: fields) =
    fieldRoles f >>= fun r => (rolesOf fields).map fun rs => (f.name, r) :: rs := by
  rw [rolesOf, List.mapM_cons]
  cases fieldRoles f with
  | error e => rfl
  | ok r =>
    change (rolesOf fields >>= fun rs => pure ((f.name, r) :: rs)) = (rolesOf fields).map fun rs => (f.name, r) :: rs
    cases rolesOf fields <;> rfl

/-- Collecting is reading all marks and adding what they say. -/
theorem collectFrom_eq (c : Collected) (fields : List Field) :
    collectFrom c fields = (rolesOf fields).map fun rs => rs.foldl Collected.add c := by
  induction fields generalizing c with
  | nil => rfl
  | cons f fields ih =>
    rw [collectFrom, rolesOf_cons]
    cases fieldRoles f with
    | error e => rfl
    | ok r =>
      dsimp only
      rw [ih, ok_bind]
      cases rolesOf fields <;> rfl

/-- **Going through the fields once comes to the same for every declaration.** -/
theorem resolveInOnePass_eq (d : Declared) : resolveInOnePass d = resolve d := by
  have hpick (rs : List (String × Roles)) (role : Role) :
      choose role ((rs.foldl Collected.add .none).marked role) ((rs.foldl Collected.add .none).named role) =
        pick role rs := by
    obtain ⟨hmarked, hnamed⟩ := Collected.foldl_add .none rs role
    rw [hmarked, hnamed, pick_eq_choose]
    rfl
  have hfields : (d.fields.mapM fun f => (fieldRoles f).map fun r => (f.name, r)) = rolesOf d.fields := rfl
  rw [resolveInOnePass, resolve, collectFrom_eq, hfields]
  cases rolesOf d.fields with
  | error e => rfl
  | ok rs => simp only [ok_map, ok_bind, hpick]

/-! ## Marks without faults -/

/-- Whether a mark, if it is read at all, lists arguments of one kind. -/
def Mark.Lists {ι : Type} (argument : ι → Argument) (m : Mark) : Prop :=
  m.path = markPath → ∃ is : List ι, m.arguments = some (is.map argument)

/-- All arguments that are read. -/
def argumentsOf (marks : List Mark) : List Argument :=
  (marks.filter fun m => m.path = markPath).flatMap fun m => m.arguments.getD []

/-- Reading arguments of a kind that is read without faults. -/
theorem readMarks_eq {α ι : Type} {read : α → Argument → Except Fault α} {argument : ι → Argument} {step : α → ι → α}
    (hread : ∀ state i, read state (argument i) = .ok (step state i)) {marks : List Mark}
    (hmarks : ∀ m ∈ marks, m.Lists argument) (start : α) :
    ∃ is : List ι, is.map argument = argumentsOf marks ∧ readMarks read start marks = .ok (is.foldl step start) := by
  have harguments (is : List ι) (state : α) : (is.map argument).foldlM read state = .ok (is.foldl step state) := by
    induction is generalizing state with
    | nil => rfl
    | cons i is ih => rw [List.map_cons, List.foldlM_cons, hread, ok_bind, ih, List.foldl_cons]
  induction marks generalizing start with
  | nil => exact ⟨[], rfl, rfl⟩
  | cons m marks ih =>
    obtain ⟨hm, hmarks⟩ := List.forall_mem_cons.1 hmarks
    by_cases hpath : m.path = markPath
    · obtain ⟨is, his⟩ := hm hpath
      obtain ⟨more, hmore, hrest⟩ := ih hmarks (is.foldl step start)
      refine ⟨is ++ more, ?_, ?_⟩
      · simp [argumentsOf, hpath, his, hmore]
      · rw [readMarks] at hrest ⊢
        rw [List.filter_cons_of_pos (by simpa using hpath), List.foldlM_cons, his]
        dsimp only
        rw [harguments, ok_bind, hrest, List.foldl_append]
    · obtain ⟨is, his, hrest⟩ := ih hmarks start
      refine ⟨is, ?_, ?_⟩
      · simpa [argumentsOf, hpath] using his
      · rw [readMarks] at hrest ⊢
        rwa [List.filter_cons_of_neg (by simpa using hpath)]

def roleArgument (role : Role) : Argument := ⟨role.word, .absent⟩

def collectionArgument (name : String) : Argument := ⟨"collection", .text name⟩

theorem collectionOf_eq {marks : List Mark} (h : ∀ m ∈ marks, m.Lists collectionArgument) :
    ∃ collection, collectionOf marks = .ok collection := by
  have hread (state : Option String) (name : String) :
      readCollection state (collectionArgument name) = .ok (some name) := rfl
  obtain ⟨names, -, hok⟩ := readMarks_eq hread h none
  exact ⟨_, hok⟩

/-- Whether a field is marked with a role. -/
def Field.marked (f : Field) (role : Role) : Bool := (argumentsOf f.marks).any fun a => a.key = role.word

def Roles.add (r : Roles) : Role → Roles
  | .id => { r with id := true }
  | .tracker => { r with tracker := true }

theorem readRole_roleArgument (r : Roles) (role : Role) : readRole r (roleArgument role) = .ok (r.add role) := by
  cases role <;> rfl

theorem Roles.has_add (r : Roles) (role other : Role) : (r.add role).has other = (r.has other || role = other) := by
  cases role <;> cases other <;> simp [add, has]

theorem Roles.has_foldl_add (r : Roles) (roles : List Role) (role : Role) :
    (roles.foldl add r).has role = (r.has role || roles.any fun other => other = role) := by
  induction roles generalizing r with
  | nil => simp
  | cons other roles ih => rw [List.foldl_cons, ih, has_add, List.any_cons, Bool.or_assoc]

theorem Role.word_inj {role other : Role} : role.word = other.word ↔ role = other := by
  cases role <;> cases other <;> decide

theorem fieldRoles_eq (h : ∀ m ∈ f.marks, m.Lists roleArgument) :
    fieldRoles f = .ok ⟨f.marked .id, f.marked .tracker⟩ := by
  obtain ⟨roles, hroles, hread⟩ := readMarks_eq readRole_roleArgument h ⟨false, false⟩
  have hmarked (role : Role) : (roles.foldl Roles.add ⟨false, false⟩).has role = f.marked role := by
    rw [Roles.has_foldl_add, Field.marked, ← hroles, List.any_map]
    cases role <;> simp [Roles.has, roleArgument, Function.comp_def, Role.word_inj]
  rw [fieldRoles, hread, ← hmarked, ← hmarked]
  rfl

/-! ## Fields that take a role -/

/-- A record with fields of different names, with marks of roles on them, and with marks that name collections. -/
structure Declared.WellMarked (d : Declared) : Prop where
  shape : d.shape = .record
  names : (d.fields.map Field.name).Nodup
  fields : ∀ f ∈ d.fields, ∀ m ∈ f.marks, m.Lists roleArgument
  marks : ∀ m ∈ d.marks, m.Lists collectionArgument

/-- Whether a field takes a role: as the only one that is marked with it, or, if none is, by its name. -/
def Declared.Takes (d : Declared) (role : Role) (f : Field) : Prop :=
  f ∈ d.fields ∧ (f.marked role = true ∧ (∀ g ∈ d.fields, g.marked role = true → g = f) ∨
    f.name = role.word ∧ ∀ g ∈ d.fields, g.marked role = false)

/-- A role is taken iff one field alone is marked with it, or none is and there is one of its name. -/
theorem exists_takes_iff : (∃ f, d.Takes role f) ↔ (∃! f, f ∈ d.fields ∧ f.marked role = true) ∨
    (∀ f ∈ d.fields, f.marked role = false) ∧ ∃ f ∈ d.fields, f.name = role.word := by
  constructor
  · rintro ⟨f, hf, ⟨hmarked, honly⟩ | ⟨hname, hnone⟩⟩
    · exact .inl ⟨f, ⟨hf, hmarked⟩, fun g hg => honly g hg.1 hg.2⟩
    · exact .inr ⟨hnone, f, hf, hname⟩
  · rintro (⟨f, ⟨hf, hmarked⟩, honly⟩ | ⟨hnone, f, hf, hname⟩)
    · exact ⟨f, hf, .inl ⟨hmarked, fun g hg hg' => honly g ⟨hg, hg'⟩⟩⟩
    · exact ⟨f, hf, .inr ⟨hname, hnone⟩⟩

/-- The field of a role by the marks and the names of all fields. -/
def choice (fields : List Field) (role : Role) : Except Fault String :=
  choose role ((fields.filter fun f => f.marked role).map Field.name)
    (if fields.any fun f => f.name = role.word then some role.word else none)

theorem choice_perm {fields fields' : List Field} (h : fields.Perm fields') (role : Role) :
    choice fields role = choice fields' role := by
  rw [choice, choice, choose_perm ((h.filter _).map Field.name), h.any_eq]

/-- The only member of a list without repetitions. -/
theorem eq_singleton_of_nodup {α : Type} {a : α} {as : List α} (h : as.Nodup) (hmem : a ∈ as)
    (hall : ∀ b ∈ as, b = a) : as = [a] := by
  rw [List.eq_replicate_of_mem hall] at h hmem ⊢
  have hlength : as.length ≤ 1 := List.nodup_replicate.1 h
  have hpos : as.length ≠ 0 := (List.mem_replicate.1 hmem).1
  rw [show as.length = 1 by omega, List.replicate_one]

theorem choice_eq_ok_iff (hnames : (d.fields.map Field.name).Nodup) {name : String} :
    choice d.fields role = .ok name ↔ ∃ f, d.Takes role f ∧ f.name = name := by
  rw [choice, choose_eq_ok_iff, List.map_eq_singleton_iff, List.map_eq_nil_iff, List.filter_eq_nil_iff]
  constructor
  · rintro (⟨f, hf, rfl⟩ | ⟨hnone, hnamed⟩)
    · have honly (g : Field) : g ∈ d.fields ∧ g.marked role = true ↔ g = f := by
        have hiff : g ∈ d.fields.filter (fun f => f.marked role) ↔ _ := List.mem_filter
        rw [← hiff, hf, List.mem_singleton]
      obtain ⟨hmem, hmarked⟩ := (honly f).2 rfl
      exact ⟨f, ⟨hmem, .inl ⟨hmarked, fun g hg hg' => (honly g).1 ⟨hg, hg'⟩⟩⟩, rfl⟩
    · split at hnamed
      · next hany =>
        cases hnamed
        obtain ⟨f, hf, hname⟩ := List.any_eq_true.1 hany
        have hname : f.name = role.word := of_decide_eq_true hname
        exact ⟨f, ⟨hf, .inr ⟨hname, fun g hg => Bool.eq_false_iff.2 (hnone g hg)⟩⟩, hname⟩
      · cases hnamed
  · rintro ⟨f, ⟨hf, ⟨hmarked, honly⟩ | ⟨hname, hnone⟩⟩, rfl⟩
    · have hnodup := (List.Nodup.of_map _ hnames).filter fun g => g.marked role
      refine .inl ⟨f, eq_singleton_of_nodup hnodup (List.mem_filter.2 ⟨hf, hmarked⟩) ?_, rfl⟩
      intro g hg
      exact honly g (List.mem_filter.1 hg).1 (List.mem_filter.1 hg).2
    · refine .inr ⟨fun g hg => Bool.eq_false_iff.1 (hnone g hg), ?_⟩
      rw [if_pos (List.any_eq_true.2 ⟨f, hf, decide_eq_true hname⟩), hname]

theorem rolesOf_eq {fields : List Field} (h : ∀ f ∈ fields, ∀ m ∈ f.marks, m.Lists roleArgument) :
    rolesOf fields = .ok (fields.map fun f => (f.name, ⟨f.marked .id, f.marked .tracker⟩)) := by
  induction fields with
  | nil => rfl
  | cons f fields ih =>
    obtain ⟨hf, hfields⟩ := List.forall_mem_cons.1 h
    rw [rolesOf_cons, fieldRoles_eq hf, ih hfields]
    rfl

theorem pick_eq_choice (fields : List Field) (role : Role) :
    pick role (fields.map fun f => (f.name, ⟨f.marked .id, f.marked .tracker⟩)) = choice fields role := by
  have hhas (f : Field) : Roles.has ⟨f.marked .id, f.marked .tracker⟩ role = f.marked role := by cases role <;> rfl
  rw [pick_eq_choose, choice, List.filter_map, List.map_map, List.any_map]
  simp only [Function.comp_def, hhas]

theorem resolve_eq (hshape : d.shape = .record) (hfields : ∀ f ∈ d.fields, ∀ m ∈ f.marks, m.Lists roleArgument) :
    resolve d = do
      let id ← choice d.fields .id
      let tracker ← choice d.fields .tracker
      let collection ← collectionOf d.marks
      return ⟨id, tracker, collection⟩ := by
  have hroles : (d.fields.mapM fun f => (fieldRoles f).map fun r => (f.name, r)) = .ok _ := rolesOf_eq hfields
  rw [resolve, if_neg (not_not_intro hshape), hroles]
  simp only [ok_bind, pick_eq_choice]

def Picked.field (p : Picked) : Role → String
  | .id => p.id
  | .tracker => p.tracker

/-- What is picked, and when anything is. -/
theorem resolve_eq_ok_iff (h : d.WellMarked) {picked : Picked} : resolve d = .ok picked ↔
    (∀ role, ∃ f, d.Takes role f ∧ f.name = picked.field role) ∧ collectionOf d.marks = .ok picked.collection := by
  simp only [resolve_eq h.shape h.fields, bind_eq_ok_iff, choice_eq_ok_iff h.names]
  constructor
  · rintro ⟨id, hid, tracker, htracker, collection, hcollection, hpicked⟩
    cases hpicked
    refine ⟨fun role => ?_, hcollection⟩
    cases role with
    | id => exact hid
    | tracker => exact htracker
  · rintro ⟨htakes, hcollection⟩
    exact ⟨_, htakes .id, _, htakes .tracker, _, hcollection, rfl⟩

/-- The order of the fields does not matter. -/
theorem resolve_perm (h : d.WellMarked) {fields : List Field} (hperm : fields.Perm d.fields) :
    resolve { d with fields } = resolve d := by
  have hfields : ∀ f ∈ fields, ∀ m ∈ f.marks, m.Lists roleArgument := fun f hf => h.fields f (hperm.mem_iff.1 hf)
  have hchoice : choice fields = choice d.fields := funext (choice_perm hperm)
  rw [resolve_eq (d := { d with fields }) h.shape hfields, resolve_eq h.shape h.fields, hchoice]

/-- **A role is taken by the field that is marked with it, or by its name.** A declaration without faults in its marks
is accepted iff, for each role, exactly one field is marked with it, or none is and there is a field of its name. Then
this field is picked, the marked one if there is one. The order of the fields changes nothing, and nor does
collecting what is said of both roles in one pass over them. -/
theorem resolve_by_role (h : d.WellMarked) :
    ((∃ picked, resolve d = .ok picked) ↔ ∀ role, (∃! f, f ∈ d.fields ∧ f.marked role = true) ∨
      (∀ f ∈ d.fields, f.marked role = false) ∧ ∃ f ∈ d.fields, f.name = role.word) ∧
    (∀ picked, resolve d = .ok picked → ∀ role, ∃ f, d.Takes role f ∧ f.name = picked.field role) ∧
    (∀ fields : List Field, fields.Perm d.fields → resolve { d with fields } = resolve d) ∧
    resolveInOnePass d = resolve d := by
  refine ⟨?_, fun picked hpicked => ((resolve_eq_ok_iff h).1 hpicked).1, fun fields => resolve_perm h,
    resolveInOnePass_eq d⟩
  simp only [← exists_takes_iff]
  constructor
  · rintro ⟨picked, hpicked⟩ role
    obtain ⟨f, hf, -⟩ := ((resolve_eq_ok_iff h).1 hpicked).1 role
    exact ⟨f, hf⟩
  · intro htaken
    obtain ⟨id, hid⟩ := htaken .id
    obtain ⟨tracker, htracker⟩ := htaken .tracker
    obtain ⟨collection, hcollection⟩ := collectionOf_eq h.marks
    refine ⟨⟨id.name, tracker.name, collection⟩, (resolve_eq_ok_iff h).2 ⟨fun role => ?_, hcollection⟩⟩
    cases role with
    | id => exact ⟨id, hid, rfl⟩
    | tracker => exact ⟨tracker, htracker, rfl⟩

/-- The tracker is marked on the field with the name `id`, twice, and the identifier on the field with the name
`tracker`, beside marks that say nothing. The marks count, in either order of the fields. -/
theorem resolve_by_role_of_crossed_marks :
    let tracker : Mark := ⟨"entity", some [roleArgument .tracker]⟩
    let id : Field := ⟨"id", [tracker, tracker]⟩
    let key : Field := ⟨"tracker", [⟨"serde", none⟩, ⟨"entity", some []⟩, ⟨"entity", some [roleArgument .id]⟩]⟩
    let d : Declared := ⟨.record, [⟨"entity", some [collectionArgument "notes"]⟩], [id, key]⟩
    d.WellMarked ∧ (∃ f, d.Takes .id f ∧ f.name = "tracker") ∧ (∃ f, d.Takes .tracker f ∧ f.name = "id") ∧
      resolve { d with fields := [key, id] } = .ok ⟨"tracker", "id", some "notes"⟩ := by
  intro tracker id key d
  have hread (roles : List Role) : Mark.Lists roleArgument ⟨"entity", some (roles.map roleArgument)⟩ :=
    fun _ => ⟨roles, rfl⟩
  have hunread : Mark.Lists roleArgument ⟨"serde", none⟩ := fun hpath => absurd hpath (by decide)
  have hid : ∀ m ∈ id.marks, m.Lists roleArgument :=
    List.forall_mem_cons.2 ⟨hread [.tracker], List.forall_mem_singleton.2 (hread [.tracker])⟩
  have hkey : ∀ m ∈ key.marks, m.Lists roleArgument :=
    List.forall_mem_cons.2 ⟨hunread, List.forall_mem_cons.2 ⟨hread [], List.forall_mem_singleton.2 (hread [.id])⟩⟩
  have hd : d.WellMarked :=
    ⟨rfl, by decide, List.forall_mem_cons.2 ⟨hid, List.forall_mem_singleton.2 hkey⟩,
      List.forall_mem_singleton.2 fun _ => ⟨["notes"], rfl⟩⟩
  have hok : resolve d = .ok ⟨"tracker", "id", some "notes"⟩ := by decide
  obtain ⟨-, htakes, hperm, -⟩ := resolve_by_role hd
  exact ⟨hd, htakes _ hok .id, htakes _ hok .tracker, (hperm [key, id] (.swap id key [])).trans hok⟩

end Docbase.Declaration
