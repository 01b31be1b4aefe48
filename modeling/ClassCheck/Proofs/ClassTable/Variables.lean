import ClassCheck.Proofs.ClassTable.Building

/-!
# The variables of a method

A method keeps its parameters in one list and its locals in another, and finds a variable through the slot that
belongs to its name. A name may be added again, to the same list or to the other one. Main statement: after any
additions and any changes of marks, a name leads to the variable that was added last under it, with its own marks,
and a change of this variable reaches no other.
-/

namespace ClassCheck

inductive VariableKind where
  | param
  | localVar
  deriving DecidableEq

def VariableKind.slot : VariableKind → Nat → Slot
  | .param => .param
  | .localVar => .localVar

theorem VariableKind.slot_eq_param_iff {kind : VariableKind} {i : Nat} :
    (∃ j, kind.slot i = .param j) ↔ kind = .param := by
  cases kind <;> simp [slot]

/-! ## Edits -/

/-- What is done to the variables of a method: one more is added, or the one of a name is marked or unmarked. -/
inductive MethodEdit where
  | add (kind : VariableKind) (v : Variable)
  | setInitialized (name : String) (flag : Bool)
  deriving DecidableEq

namespace MethodEdit

def isAdd (kind : VariableKind) : MethodEdit → Bool
  | .add kind' _ => kind' == kind
  | .setInitialized .. => false

def Adds (name : String) : MethodEdit → Prop
  | .add _ v => v.name = name
  | .setInitialized .. => False

instance (name : String) : DecidablePred (Adds name)
  | .add _ v => inferInstanceAs (Decidable (v.name = name))
  | .setInitialized .. => inferInstanceAs (Decidable False)

/-- The edits add this variable, and none of its name after it. -/
structure LastAdded (edits before : List MethodEdit) (kind : VariableKind) (v : Variable)
    (after : List MethodEdit) : Prop where
  cut : edits = before ++ .add kind v :: after
  last : ∀ e ∈ after, ¬ e.Adds v.name

theorem exists_lastAdded_or (edits : List MethodEdit) (name : String) :
    (∀ e ∈ edits, ¬ e.Adds name) ∨
      ∃ before kind v after, LastAdded edits before kind v after ∧ v.name = name := by
  induction edits with
  | nil => exact .inl (List.forall_mem_nil _)
  | cons e edits ih =>
    rcases ih with hnone | ⟨before, kind, v, after, ⟨rfl, hafter⟩, hname⟩
    · by_cases he : e.Adds name
      · cases e with
        | add kind v =>
          obtain rfl : v.name = name := he
          exact .inr ⟨[], kind, v, edits, ⟨rfl, hnone⟩, rfl⟩
        | setInitialized => exact he.elim
      · exact .inl (List.forall_mem_cons.2 ⟨he, hnone⟩)
    · exact .inr ⟨e :: before, kind, v, after, ⟨rfl, hafter⟩, hname⟩

/-- What the edit makes of a variable to which its name leads. -/
def mark : MethodEdit → Variable → Variable
  | .add .., v => v
  | .setInitialized name flag, v => if v.name = name then { v with initialized := flag } else v

end MethodEdit

/-- The variable with the marks that these edits give to its name. -/
def Variable.markedBy (v : Variable) (edits : List MethodEdit) : Variable :=
  edits.foldl (fun v e => e.mark v) v

namespace MethodInfo

variable {m : MethodInfo} {name : String} {v : Variable} {kind : VariableKind}

/-! ## One more variable -/

def add (m : MethodInfo) : VariableKind → Variable → MethodInfo
  | .param => m.addParam
  | .localVar => m.addLocal

def count (m : MethodInfo) : VariableKind → Nat
  | .param => m.params.length
  | .localVar => m.locals.length

theorem slot?_add (m : MethodInfo) (kind : VariableKind) (v : Variable) (name : String) :
    (m.add kind v).slot? name = if name = v.name then some (kind.slot (m.count kind)) else m.slot? name := by
  cases kind with
  | param => exact m.slot?_addParam v name
  | localVar => exact m.slot?_addLocal v name

theorem varAt?_add (m : MethodInfo) (kind : VariableKind) (v : Variable) (slot : Slot) :
    (m.add kind v).varAt? slot = if slot = kind.slot (m.count kind) then some v else m.varAt? slot := by
  cases kind with
  | param => exact m.varAt?_addParam v slot
  | localVar => exact m.varAt?_addLocal v slot

theorem varAt?_count (m : MethodInfo) (kind : VariableKind) : m.varAt? (kind.slot (m.count kind)) = none := by
  cases kind <;> simp [varAt?, VariableKind.slot, count]

theorem count_add (m : MethodInfo) (kind kind' : VariableKind) (v : Variable) :
    (m.add kind' v).count kind = m.count kind + if kind' = kind then 1 else 0 := by
  cases kind <;> cases kind' <;> simp [count, add, addParam, addLocal]

theorem count_modifyVariable (m : MethodInfo) (name : String) (f : Variable → Variable) (kind : VariableKind) :
    (m.modifyVariable name f).count kind = m.count kind := by
  unfold modifyVariable
  split <;> cases kind <;> simp [count]

theorem hasParam_iff : m.hasParam name = true ↔ ∃ i, m.slot? name = some (.param i) := by
  unfold hasParam
  cases m.slot? name with
  | none => simp
  | some slot => cases slot <;> simp

namespace Keyed

theorem add (h : m.Keyed) (kind : VariableKind) (v : Variable) : (m.add kind v).Keyed :=
  h.extend (m.varAt?_count kind) (m.slot?_add kind v) (m.varAt?_add kind v)

theorem findVar?_add (h : m.Keyed) (kind : VariableKind) (v : Variable) (name : String) :
    (m.add kind v).findVar? name = if name = v.name then some v else m.findVar? name := by
  rw [findVar?_eq_bind, findVar?_eq_bind, slot?_add]
  split
  · rw [Option.bind_some, varAt?_add, if_pos rfl]
  · cases hslot : m.slot? name with
    | none => rfl
    | some slot =>
      -- The name leads to a variable, and the new slot was free.
      have hne : slot ≠ kind.slot (m.count kind) := by
        rintro rfl
        have hname := h.sound name _ hslot
        rw [varAt?_count] at hname
        cases hname
      rw [Option.bind_some, Option.bind_some, varAt?_add, if_neg hne]

theorem modifyVariable (h : m.Keyed) {f : Variable → Variable} (hf : ∀ v, (f v).name = v.name)
    (name : String) : (m.modifyVariable name f).Keyed where
  sound := by
    intro n slot hslot
    rw [slot?_modifyVariable] at hslot
    rw [name_varAt?_modifyVariable hf]
    exact h.sound n slot hslot
  complete := by
    intro slot w hw
    have hname := m.name_varAt?_modifyVariable hf name slot
    rw [hw, Option.map_some] at hname
    obtain ⟨v, hv, hvw⟩ := Option.map_eq_some_iff.1 hname.symm
    rw [slot?_modifyVariable, ← hvw]
    exact h.complete slot v hv

theorem isSome_findVar? (h : m.Keyed) (name : String) : (m.findVar? name).isSome = (m.slot? name).isSome := by
  rw [findVar?_eq_bind]
  cases hslot : m.slot? name with
  | none => rfl
  | some slot =>
    obtain ⟨v, hv, -⟩ := Option.map_eq_some_iff.1 (h.sound name slot hslot)
    rw [Option.bind_some, hv]
    rfl

end Keyed

/-! ## One edit -/

def edit (m : MethodInfo) : MethodEdit → MethodInfo
  | .add kind v => m.add kind v
  | .setInitialized name flag => m.modifyVariable name fun v => { v with initialized := flag }

theorem count_edit (m : MethodInfo) (e : MethodEdit) (kind : VariableKind) :
    (m.edit e).count kind = m.count kind + if e.isAdd kind then 1 else 0 := by
  cases e with
  | add kind' v => simpa [edit, MethodEdit.isAdd] using m.count_add kind kind' v
  | setInitialized n flag => exact m.count_modifyVariable n _ kind

theorem slot?_edit {e : MethodEdit} (hnot : ¬ e.Adds name) : (m.edit e).slot? name = m.slot? name := by
  cases e with
  | add kind v => exact (m.slot?_add kind v name).trans (if_neg fun heq => hnot heq.symm)
  | setInitialized n flag => exact m.slot?_modifyVariable n _ name

theorem Keyed.edit (h : m.Keyed) (e : MethodEdit) : (m.edit e).Keyed := by
  cases e with
  | add kind v => exact h.add kind v
  | setInitialized n flag =>
    exact h.modifyVariable (f := fun v => { v with initialized := flag }) (fun _ => rfl) n

theorem Keyed.findVar?_edit (h : m.Keyed) {e : MethodEdit} (hnot : ¬ e.Adds name) :
    (m.edit e).findVar? name = (m.findVar? name).map e.mark := by
  cases e with
  | add kind v =>
    have hsame : (m.add kind v).findVar? name = m.findVar? name :=
      (h.findVar?_add kind v name).trans (if_neg fun heq => hnot heq.symm)
    rw [MethodInfo.edit, hsame]
    exact Option.map_id'.symm
  | setInitialized n flag =>
    rw [MethodInfo.edit, findVar?_modifyVariable h.sound]
    cases hfound : m.findVar? name with
    | none => split <;> rfl
    | some v =>
      obtain rfl := h.name_of_findVar? hfound
      rw [Option.map_some, Option.map_some, MethodEdit.mark]
      split <;> rfl

/-! ## Any number of edits -/

def editAll (m : MethodInfo) (edits : List MethodEdit) : MethodInfo := edits.foldl edit m

theorem count_editAll (m : MethodInfo) (edits : List MethodEdit) (kind : VariableKind) :
    (m.editAll edits).count kind = m.count kind + edits.countP (·.isAdd kind) := by
  induction edits generalizing m with
  | nil => rfl
  | cons e edits ih =>
    have hedit := m.count_edit e kind
    rw [editAll, List.foldl_cons, ← editAll, ih, hedit, List.countP_cons]
    omega

theorem slot?_editAll {edits : List MethodEdit} (hnot : ∀ e ∈ edits, ¬ e.Adds name) :
    (m.editAll edits).slot? name = m.slot? name := by
  induction edits generalizing m with
  | nil => rfl
  | cons e edits ih =>
    obtain ⟨he, hedits⟩ := List.forall_mem_cons.1 hnot
    exact (ih hedits).trans (slot?_edit he)

theorem Keyed.editAll (h : m.Keyed) (edits : List MethodEdit) : (m.editAll edits).Keyed := by
  induction edits generalizing m with
  | nil => exact h
  | cons e edits ih => exact ih (h.edit e)

theorem Keyed.findVar?_editAll (h : m.Keyed) {edits : List MethodEdit} (hnot : ∀ e ∈ edits, ¬ e.Adds name) :
    (m.editAll edits).findVar? name = (m.findVar? name).map (·.markedBy edits) := by
  induction edits generalizing m with
  | nil => exact Option.map_id'.symm
  | cons e edits ih =>
    obtain ⟨he, hedits⟩ := List.forall_mem_cons.1 hnot
    calc ((m.edit e).editAll edits).findVar? name
      _ = ((m.edit e).findVar? name).map (·.markedBy edits) := ih (h.edit e) hedits
      _ = ((m.findVar? name).map e.mark).map (·.markedBy edits) := by rw [h.findVar?_edit he]
      _ = (m.findVar? name).map (·.markedBy (e :: edits)) := Option.map_map ..

/-! ## The variable that was added last -/

section

variable {edits before after : List MethodEdit}

theorem editAll_lastAdded (m : MethodInfo) (hlast : MethodEdit.LastAdded edits before kind v after) :
    m.editAll edits = ((m.editAll before).add kind v).editAll after := by
  rw [hlast.cut]
  exact List.foldl_append

theorem slot?_of_lastAdded (m : MethodInfo) (hlast : MethodEdit.LastAdded edits before kind v after) :
    (m.editAll edits).slot? v.name = some (kind.slot (m.count kind + before.countP (·.isAdd kind))) := by
  rw [m.editAll_lastAdded hlast, slot?_editAll hlast.last, slot?_add, if_pos rfl, count_editAll]

theorem Keyed.findVar?_of_lastAdded (h : m.Keyed) (hlast : MethodEdit.LastAdded edits before kind v after) :
    (m.editAll edits).findVar? v.name = some (v.markedBy after) := by
  have hbefore := h.editAll before
  rw [m.editAll_lastAdded hlast, (hbefore.add kind v).findVar?_editAll hlast.last, hbefore.findVar?_add,
    if_pos rfl, Option.map_some]

end

/-! ## New methods -/

section

variable (name owner : String) (returnType : Ty) (edits : List MethodEdit) {n : String}

theorem keyed_new : ({ name, owner, returnType } : MethodInfo).Keyed := (Built.new name owner returnType).keyed

theorem count_new (kind : VariableKind) : ({ name, owner, returnType } : MethodInfo).count kind = 0 := by
  cases kind <;> rfl

theorem slot?_of_edits {slot : Slot} :
    (editAll { name, owner, returnType } edits).slot? n = some slot ↔
      ∃ before kind v after, MethodEdit.LastAdded edits before kind v after ∧ v.name = n ∧
        slot = kind.slot (before.countP (·.isAdd kind)) := by
  constructor
  · intro hslot
    rcases MethodEdit.exists_lastAdded_or edits n with hnone | ⟨before, kind, v, after, hlast, rfl⟩
    · rw [slot?_editAll hnone] at hslot
      cases hslot
    · rw [slot?_of_lastAdded _ hlast, count_new, Nat.zero_add] at hslot
      exact ⟨before, kind, v, after, hlast, rfl, (Option.some.inj hslot).symm⟩
  · rintro ⟨before, kind, v, after, hlast, rfl, rfl⟩
    rw [slot?_of_lastAdded _ hlast, count_new, Nat.zero_add]

theorem slot?_of_edits_eq_none_iff :
    (editAll { name, owner, returnType } edits).slot? n = none ↔ ∀ e ∈ edits, ¬ e.Adds n := by
  refine ⟨fun hslot => ?_, fun hnone => (slot?_editAll hnone).trans rfl⟩
  rcases MethodEdit.exists_lastAdded_or edits n with hnone | ⟨before, kind, v, after, hlast, rfl⟩
  · exact hnone
  · rw [slot?_of_lastAdded _ hlast] at hslot
    cases hslot

theorem findVar?_of_edits {w : Variable} :
    (editAll { name, owner, returnType } edits).findVar? n = some w ↔
      ∃ before kind v after, MethodEdit.LastAdded edits before kind v after ∧ v.name = n ∧
        w = v.markedBy after := by
  have hnew := keyed_new name owner returnType
  constructor
  · intro hw
    rw [findVar?_eq_bind] at hw
    obtain ⟨slot, hslot, -⟩ := Option.bind_eq_some_iff.1 hw
    obtain ⟨before, kind, v, after, hlast, rfl, -⟩ := (slot?_of_edits name owner returnType edits).1 hslot
    rw [← findVar?_eq_bind, hnew.findVar?_of_lastAdded hlast] at hw
    exact ⟨before, kind, v, after, hlast, rfl, (Option.some.inj hw).symm⟩
  · rintro ⟨before, kind, v, after, hlast, rfl, rfl⟩
    exact hnew.findVar?_of_lastAdded hlast

theorem hasParam_of_edits :
    (editAll { name, owner, returnType } edits).hasParam n = true ↔
      ∃ before v after, MethodEdit.LastAdded edits before .param v after ∧ v.name = n := by
  simp only [hasParam_iff, slot?_of_edits]
  constructor
  · rintro ⟨i, before, kind, v, after, hlast, hname, hslot⟩
    obtain rfl := VariableKind.slot_eq_param_iff.1 ⟨i, hslot.symm⟩
    exact ⟨before, v, after, hlast, hname⟩
  · rintro ⟨before, v, after, hlast, hname⟩
    exact ⟨_, before, .param, v, after, hlast, hname, rfl⟩

end

/-! ## Changing a variable -/

/-- The same method with this variable in the slot, and the old ones in all others. -/
def ReplacedAt (slot : Slot) (w : Variable) (m m' : MethodInfo) : Prop :=
  (∃ params locals, m' = { m with params, locals }) ∧
    ∀ other, m'.varAt? other = if other = slot then some w else m.varAt? other

theorem replacedAt_modifyVariable {slot : Slot} (hslot : m.slot? name = some slot)
    (hv : m.varAt? slot = some v) (f : Variable → Variable) :
    m.ReplacedAt slot (f v) (m.modifyVariable name f) := by
  constructor
  · unfold modifyVariable
    split
    · exact ⟨_, m.locals, rfl⟩
    · exact ⟨m.params, _, rfl⟩
    · exact ⟨m.params, m.locals, rfl⟩
  · intro other
    rw [varAt?_modifyVariable, hslot]
    by_cases hother : other = slot
    · subst hother
      rw [if_pos rfl, if_pos rfl, hv, Option.map_some]
    · rw [if_neg (by simpa using Ne.symm hother), if_neg hother]

/-- For every new method and all edits, and for every name: there is a slot for the name if and only if a variable
was added under it, and it is the slot of the one that was added last. A variable of this name stands there, with the
marks that it got since, and it is the one that is found. It is a parameter if and only if it was added as one.
Whatever is done to the variable of the name is done to the one in this slot, and nothing else is changed. -/
theorem variables_of_edits (name owner : String) (returnType : Ty) (edits : List MethodEdit) (n : String) :
    let m := editAll { name, owner, returnType } edits
    (∀ slot, m.slot? n = some slot → ∃ v, m.varAt? slot = some v ∧ v.name = n) ∧
    (∀ slot, m.slot? n = some slot ↔
      ∃ before kind v after, MethodEdit.LastAdded edits before kind v after ∧ v.name = n ∧
        slot = kind.slot (before.countP (·.isAdd kind))) ∧
    (∀ w, m.findVar? n = some w ↔
      ∃ before kind v after, MethodEdit.LastAdded edits before kind v after ∧ v.name = n ∧
        w = v.markedBy after) ∧
    (m.findVar? n = none ↔ ∀ e ∈ edits, ¬ e.Adds n) ∧
    m.hasVariable n = (m.findVar? n).isSome ∧
    (m.hasParam n = true ↔
      ∃ before v after, MethodEdit.LastAdded edits before .param v after ∧ v.name = n) ∧
    ∀ f, (m.slot? n = none → m.modifyVariable n f = m) ∧
      ∀ slot, m.slot? n = some slot → ∃ v, m.varAt? slot = some v ∧ m.findVar? n = some v ∧
        m.ReplacedAt slot (f v) (m.modifyVariable n f) := by
  intro m
  have hm : m.Keyed := (keyed_new name owner returnType).editAll edits
  have hvar : ∀ slot, m.slot? n = some slot → ∃ v, m.varAt? slot = some v ∧ v.name = n :=
    fun slot hslot => Option.map_eq_some_iff.1 (hm.sound n slot hslot)
  have hnone : m.findVar? n = none ↔ m.slot? n = none := by
    rw [← Option.not_isSome_iff_eq_none, ← Option.not_isSome_iff_eq_none, hm.isSome_findVar?]
  refine ⟨hvar, fun _ => slot?_of_edits name owner returnType edits,
    fun _ => findVar?_of_edits name owner returnType edits,
    hnone.trans (slot?_of_edits_eq_none_iff name owner returnType edits),
    (hm.isSome_findVar? n).symm, hasParam_of_edits name owner returnType edits, fun f => ⟨?_, ?_⟩⟩
  · intro hslot
    rw [modifyVariable, hslot]
  · intro slot hslot
    obtain ⟨v, hv, -⟩ := hvar slot hslot
    refine ⟨v, hv, ?_, replacedAt_modifyVariable hslot hv f⟩
    rw [findVar?_eq_bind, hslot, Option.bind_some, hv]

/-- A local takes the name of a parameter, and the mark that was meant for it. -/
example :
    let m := editAll { name := "m", owner := "A", returnType := .int }
      [.add .param { name := "x", type := .int, initialized := false },
        .add .localVar { name := "x", type := .boolean, initialized := false },
        .setInitialized "x" true]
    m.findVar? "x" = some { name := "x", type := .boolean, initialized := true } ∧
      m.params = [{ name := "x", type := .int, initialized := false }] ∧ m.hasParam "x" = false := by
  decide

end MethodInfo

end ClassCheck
