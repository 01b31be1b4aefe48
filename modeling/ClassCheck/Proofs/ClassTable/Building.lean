import ClassCheck.Proofs.ClassTable.Retype

/-!
# Putting a table together

Classes are declared and stored, and a class that is in the table already gets fields and methods, and its
methods parameters and locals. Nothing is checked: any name may come twice, and a class may be put in the
place of another one. Main statement: whatever was done, in every method a name leads to a variable of that
name, and the name of every variable leads somewhere.
-/

namespace ClassCheck

/-! ## Methods -/

namespace MethodInfo

variable {m m' : MethodInfo} {name : String} {v : Variable}

/-- A new method, and after it one parameter or local at a time. -/
inductive Built : MethodInfo → Prop
  | new (name owner : String) (returnType : Ty) : Built { name, owner, returnType }
  | addParam {m : MethodInfo} (v : Variable) : Built m → Built (m.addParam v)
  | addLocal {m : MethodInfo} (v : Variable) : Built m → Built (m.addLocal v)

/-- A name leads to a variable of that name, and the name of a variable leads somewhere. If there are more
variables of a name, then all but one are out of reach. -/
structure Keyed (m : MethodInfo) : Prop where
  sound : ∀ name slot, m.slot? name = some slot → (m.varAt? slot).map (·.name) = some name
  complete : ∀ slot v, m.varAt? slot = some v → (m.slot? v.name).isSome = true

theorem Keyed.extend (h : m.Keyed) {s : Slot} (hfree : m.varAt? s = none)
    (hslot : ∀ name, m'.slot? name = if name = v.name then some s else m.slot? name)
    (hvar : ∀ slot, m'.varAt? slot = if slot = s then some v else m.varAt? slot) : m'.Keyed where
  sound := by
    intro name slot hfound
    rw [hslot] at hfound
    rw [hvar]
    split at hfound
    · next hname =>
      obtain rfl := Option.some.inj hfound
      rw [if_pos rfl, Option.map_some, hname]
    · have hold := h.sound name slot hfound
      have hne : slot ≠ s := by
        rintro rfl
        rw [hfree] at hold
        cases hold
      rwa [if_neg hne]
  complete := by
    intro slot w hw
    rw [hvar] at hw
    rw [hslot]
    split at hw
    · obtain rfl := Option.some.inj hw
      rw [if_pos rfl]
      rfl
    · split
      · rfl
      · exact h.complete slot w hw

theorem Built.keyed (h : m.Built) : m.Keyed := by
  induction h with
  | new name owner returnType =>
    constructor
    · intro n slot hslot
      cases hslot
    · intro slot v hv
      cases slot <;> simp [varAt?] at hv
  | @addParam m v _ ih => exact ih.extend (by simp [varAt?]) (m.slot?_addParam v) (m.varAt?_addParam v)
  | @addLocal m v _ ih => exact ih.extend (by simp [varAt?]) (m.slot?_addLocal v) (m.varAt?_addLocal v)

theorem Keyed.name_of_findVar? (h : m.Keyed) (hv : m.findVar? name = some v) : v.name = name := by
  rw [findVar?_eq_bind] at hv
  obtain ⟨slot, hslot, hv⟩ := Option.bind_eq_some_iff.1 hv
  have hname := h.sound name slot hslot
  rw [hv] at hname
  exact Option.some.inj hname

theorem Keyed.findVar?_eq_none_iff (h : m.Keyed) :
    m.findVar? name = none ↔ ∀ v ∈ m.params ++ m.locals, v.name ≠ name := by
  constructor
  · rintro hnone v hv rfl
    obtain ⟨slot, hslot⟩ := mem_variables_iff.1 hv
    obtain ⟨slot', hslot'⟩ := Option.isSome_iff_exists.1 (h.complete slot v hslot)
    -- The name leads to a variable, though not always to this one.
    have hsound := h.sound v.name slot' hslot'
    rw [findVar?_eq_bind, hslot', Option.bind_some] at hnone
    rw [hnone] at hsound
    cases hsound
  · intro hnot
    rw [Option.eq_none_iff_forall_ne_some]
    intro v hv
    have hmem : v ∈ m.params ++ m.locals := by
      rw [findVar?_eq_bind] at hv
      obtain ⟨slot, -, hslot⟩ := Option.bind_eq_some_iff.1 hv
      exact mem_variables_iff.2 ⟨slot, hslot⟩
    exact hnot v hmem (h.name_of_findVar? hv)

end MethodInfo

/-! ## Classes -/

/-- What can be added to a class. A parameter or a local goes to the first method of the name. -/
inductive ClassEdit where
  | addField (v : Variable)
  | addMethod (m : MethodInfo)
  | addParam (method : String) (v : Variable)
  | addLocal (method : String) (v : Variable)
  deriving DecidableEq

/-- A method that is added is put together itself. -/
def ClassEdit.Sound : ClassEdit → Prop
  | .addMethod m => m.Built
  | _ => True

namespace ClassInfo

variable {c : ClassInfo}

def edit (c : ClassInfo) : ClassEdit → ClassInfo
  | .addField v => { c with fields := c.fields ++ [v] }
  | .addMethod m => { c with methods := c.methods ++ [m] }
  | .addParam method v => c.modifyMethod method (·.addParam v)
  | .addLocal method v => c.modifyMethod method (·.addLocal v)

inductive Built : ClassInfo → Prop
  | new (name : String) (parent : Option String) : Built { name, parent }
  | edit {c : ClassInfo} {e : ClassEdit} : Built c → e.Sound → Built (c.edit e)

/-- All methods are put together as methods are. -/
def HoldsBuilt (c : ClassInfo) : Prop := ∀ m ∈ c.methods, m.Built

theorem HoldsBuilt.edit (h : c.HoldsBuilt) {e : ClassEdit} (he : e.Sound) : (c.edit e).HoldsBuilt := by
  cases e with
  | addField v => exact h
  | addMethod m => exact List.forall_mem_append.2 ⟨h, List.forall_mem_singleton.2 he⟩
  | addParam method v => exact forall_mem_modifyFirst (fun _ hm => hm.addParam v) h
  | addLocal method v => exact forall_mem_modifyFirst (fun _ hm => hm.addLocal v) h

theorem Built.holdsBuilt (h : c.Built) : c.HoldsBuilt := by
  induction h with
  | new name parent => exact List.forall_mem_nil _
  | edit _ he ih => exact ih.edit he

end ClassInfo

/-! ## Tables -/

namespace ClassTable

variable {t : ClassTable} {c : ClassInfo}

/-- The empty table, and after it any number of declarations, replacements and additions. -/
inductive Built : ClassTable → Prop
  | empty : Built ClassTable.empty
  | declare {t : ClassTable} {c : ClassInfo} : Built t → c.Built → Built (t.declare c)
  | store {t : ClassTable} {c : ClassInfo} : Built t → c.Built → Built (t.store c)
  | edit {t : ClassTable} (className : String) {e : ClassEdit} :
      Built t → e.Sound → Built (t.modify className (·.edit e))

theorem forall_mem_put {P : ClassInfo → Prop} {ds : List ClassInfo} (h : ∀ d ∈ ds, P d) (hc : P c) :
    ∀ d ∈ put c ds, P d := by
  induction ds with
  | nil => exact List.forall_mem_singleton.2 hc
  | cons d ds ih =>
    obtain ⟨hd, hds⟩ := List.forall_mem_cons.1 h
    unfold put
    split
    · exact List.forall_mem_cons.2 ⟨hc, hds⟩
    · exact List.forall_mem_cons.2 ⟨hd, ih hds⟩

theorem Built.holdsBuilt (h : t.Built) : ∀ c ∈ t.entries, c.HoldsBuilt := by
  induction h with
  | empty => exact List.forall_mem_nil _
  | declare _ hc ih => exact forall_mem_put ih hc.holdsBuilt
  | store _ hc ih => exact forall_mem_put ih hc.holdsBuilt
  | edit className _ he ih => exact forall_mem_modifyFirst (fun _ hc => hc.edit he) ih

theorem Built.keyed (h : t.Built) {name method : String} {m : MethodInfo} (hc : t.get? name = some c)
    (hm : c.method? method = some m) : m.Keyed :=
  (h.holdsBuilt c (List.mem_of_find?_eq_some hc) m (List.mem_of_find?_eq_some hm)).keyed

end ClassTable

end ClassCheck
