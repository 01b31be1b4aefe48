import ClassCheck.ClassTable.Resolve
import ClassCheck.Layout
import ClassCheck.Proofs.ClassTable.Order

/-!
# Tables without marks and offsets

Checking sets marks on variables, and laying out sets offsets. Nothing that is looked up by name
depends on either: it is found in the plain table, which has neither, if and only if it is found in
the table itself.
-/

namespace ClassCheck

def Variable.plain (v : Variable) : Variable := { v with initialized := false, offset := 0 }

def MethodInfo.plain (m : MethodInfo) : MethodInfo :=
  { m with params := m.params.map Variable.plain, locals := m.locals.map Variable.plain, offset := 0 }

def ClassInfo.plain (c : ClassInfo) : ClassInfo :=
  { c with
    fields := c.fields.map Variable.plain
    methods := c.methods.map MethodInfo.plain
    fieldCursor := 0
    methodCursor := 0 }

def ClassTable.plain (t : ClassTable) : ClassTable :=
  { t with entries := t.entries.map ClassInfo.plain }

def Resolved.plain (r : Resolved) : Resolved := { r with initialized := false }

/-! ## Looking up in a plain table -/

theorem MethodInfo.findVar?_plain (m : MethodInfo) (name : String) :
    m.plain.findVar? name = (m.findVar? name).map Variable.plain := by
  have hslot : m.plain.slot? name = m.slot? name := rfl
  unfold findVar?
  rw [hslot]
  split
  · exact List.getElem?_map
  · exact List.getElem?_map
  · rfl

theorem ClassInfo.field?_plain (c : ClassInfo) (name : String) :
    c.plain.field? name = (c.field? name).map Variable.plain := by
  rw [field?, plain, List.find?_map]
  rfl

theorem ClassInfo.method?_plain (c : ClassInfo) (name : String) :
    c.plain.method? name = (c.method? name).map MethodInfo.plain := by
  rw [method?, plain, List.find?_map]
  rfl

namespace ClassTable

variable (t : ClassTable) (name : String)

theorem get?_plain : t.plain.get? name = (t.get? name).map ClassInfo.plain := by
  rw [get?, plain, List.find?_map]
  rfl

theorem contains_plain : t.plain.contains name = t.contains name := by
  rw [contains, contains, get?_plain, Option.isSome_map]

theorem parent?_plain : t.plain.parent? name = t.parent? name := by
  rw [parent?, parent?, get?_plain]
  cases t.get? name <;> rfl

theorem chainWithin_plain (bound : Nat) (next : Option String) :
    t.plain.chainWithin bound next = (t.chainWithin bound next).map ClassInfo.plain := by
  induction bound generalizing next with
  | zero => rfl
  | succ bound ih =>
    cases next with
    | none => rfl
    | some name =>
      simp only [chainWithin, Option.bind_some, get?_plain]
      cases t.get? name with
      | none => rfl
      | some c =>
        simp only [Option.map_some, List.map_cons, ih]
        rfl

theorem ancestors_plain : t.plain.ancestors name = (t.ancestors name).map ClassInfo.plain := by
  have hlen : t.plain.entries.length = t.entries.length := List.length_map _
  rw [ancestors, chainWithin_plain, hlen, get?_plain, ancestors]
  cases t.get? name <;> rfl

theorem method?_plain (method : String) :
    t.plain.method? name method = (t.method? name method).map MethodInfo.plain := by
  have hinherited : t.plain.inheritedMethod? name method =
      (t.inheritedMethod? name method).map MethodInfo.plain := by
    rw [inheritedMethod?, ancestors_plain, List.findSome?_map, inheritedMethod?,
      List.map_findSome?]
    congr 1
    funext c
    exact c.method?_plain method
  unfold method?
  rw [get?_plain, hinherited]
  cases t.get? name with
  | none => rfl
  | some c =>
    change (c.plain.method? method).or _ = ((c.method? method).or _).map _
    rw [c.method?_plain, Option.map_or]

theorem resolve_plain (cx : Context) :
    t.plain.resolve cx name = (t.resolve cx name).map Resolved.plain := by
  have hmethod : t.plain.methodVariable? cx name =
      (t.methodVariable? cx name).map Resolved.plain := by
    unfold methodVariable?
    rw [get?_plain]
    cases t.get? cx.className with
    | none => rfl
    | some c =>
      simp only [Option.map_some, Option.bind_eq_bind, Option.bind_some, c.method?_plain]
      cases c.method? cx.method with
      | none => rfl
      | some m =>
        simp only [Option.map_some, Option.bind_some, m.findVar?_plain]
        cases m.findVar? name <;> rfl
  have hown : t.plain.ownField? cx name = (t.ownField? cx name).map Resolved.plain := by
    unfold ownField?
    rw [get?_plain]
    cases t.get? cx.className with
    | none => rfl
    | some c =>
      simp only [Option.map_some, Option.bind_eq_bind, Option.bind_some, c.field?_plain]
      cases c.field? name <;> rfl
  have hinherited : t.plain.inheritedField? cx name =
      (t.inheritedField? cx name).map Resolved.plain := by
    rw [inheritedField?, ancestors_plain, List.findSome?_map, inheritedField?, List.map_findSome?]
    congr 1
    funext c
    simp only [Function.comp_apply, c.field?_plain]
    cases c.field? name <;> rfl
  rw [resolve, hmethod, hown, hinherited, resolve, Option.map_or, Option.map_or]

end ClassTable

/-! ## Marks and offsets -/

theorem map_modifyFirst {α β : Type} {p : α → Bool} {f : α → α} {g : α → β}
    (h : ∀ a, g (f a) = g a) (as : List α) : (modifyFirst p f as).map g = as.map g := by
  induction as with
  | nil => rfl
  | cons a as ih =>
    unfold modifyFirst
    split
    · rw [List.map_cons, h, List.map_cons]
    · rw [List.map_cons, ih, List.map_cons]

theorem map_modify {α β : Type} {f : α → α} {g : α → β} (h : ∀ a, g (f a) = g a) (as : List α)
    (i : Nat) : (as.modify i f).map g = as.map g := by
  apply List.ext_getElem?
  intro j
  rw [List.getElem?_map, List.getElem?_map, List.getElem?_modify]
  cases as[j]? with
  | none => rfl
  | some a => by_cases hij : i = j <;> simp [hij, h]

theorem MethodInfo.plain_modifyVariable {f : Variable → Variable} (h : ∀ v, (f v).plain = v.plain)
    (m : MethodInfo) (name : String) : (m.modifyVariable name f).plain = m.plain := by
  unfold modifyVariable
  split
  · simp only [plain, map_modify h]
  · simp only [plain, map_modify h]
  · rfl

namespace ClassInfo

theorem map_plain_placeFields (cursor : Nat) (fs : List Variable) :
    (placeFields cursor fs).1.map Variable.plain = fs.map Variable.plain := by
  induction fs generalizing cursor with
  | nil => rfl
  | cons f fs ih =>
    rw [placeFields, List.map_cons, List.map_cons, ih]
    rfl

theorem map_plain_placeMethods (parent : Option ClassInfo) (cursor : Nat) (ms : List MethodInfo) :
    (placeMethods parent cursor ms).1.map MethodInfo.plain = ms.map MethodInfo.plain := by
  induction ms generalizing cursor with
  | nil => rfl
  | cons m ms ih =>
    unfold placeMethods
    split
    · rw [List.map_cons, List.map_cons, ih]
      rfl
    · rw [List.map_cons, List.map_cons, ih]
      rfl

theorem plain_layOut (parent : Option ClassInfo) (c : ClassInfo) :
    (c.layOut parent).plain = c.plain := by
  simp only [layOut, plain, map_plain_placeFields, map_plain_placeMethods]

end ClassInfo

namespace ClassTable

theorem plain_modify {f : ClassInfo → ClassInfo} (h : ∀ c, (f c).plain = c.plain) (t : ClassTable)
    (name : String) : (t.modify name f).plain = t.plain := by
  simp only [plain, modify, map_modifyFirst h]

theorem plain_markInitialized (t : ClassTable) (place : Place) (name : String) :
    (t.markInitialized place name).plain = t.plain := by
  have hmark : ∀ v : Variable, ({ v with initialized := true } : Variable).plain = v.plain :=
    fun _ => rfl
  unfold markInitialized modifyVariableAt
  cases place with
  | inMethod className method =>
    apply plain_modify
    intro c
    simp only [ClassInfo.plain, ClassInfo.modifyMethod,
      map_modifyFirst fun m => MethodInfo.plain_modifyVariable hmark m name]
  | inClass className =>
    apply plain_modify
    intro c
    simp only [ClassInfo.plain, ClassInfo.modifyField, map_modifyFirst hmark]

theorem plain_store {t : ClassTable} {c d : ClassInfo} (hd : t.get? c.name = some d)
    (h : c.plain = d.plain) : (t.store c).plain = t.plain := by
  have hput : ∀ ds : List ClassInfo, ds.find? (·.name == c.name) = some d →
      (put c ds).map ClassInfo.plain = ds.map ClassInfo.plain := by
    intro ds hfind
    induction ds with
    | nil => simp at hfind
    | cons e ds ih =>
      unfold put
      by_cases he : e.name = c.name
      · obtain rfl : e = d := by simpa [he] using hfind
        rw [if_pos he, List.map_cons, h, List.map_cons]
      · rw [if_neg he, List.map_cons, List.map_cons, ih (by simpa [he] using hfind)]
  simp only [plain, store, hput t.entries hd]

theorem plain_layOutClass (t : ClassTable) (name : String) :
    (t.layOutClass name).plain = t.plain := by
  unfold layOutClass
  split
  · next c hc =>
    have hname : (c.layOut (c.parent.bind t.get?)).name = name := by
      change c.name = name
      exact name_of_get? hc
    apply plain_store (d := c)
    · rw [hname, hc]
    · exact c.plain_layOut _
  · rfl

theorem plain_layOut (t : ClassTable) : t.layOut.plain = t.plain := by
  have hall : ∀ (names : List String) (t : ClassTable),
      (names.foldl layOutClass t).plain = t.plain := by
    intro names
    induction names with
    | nil => exact fun _ => rfl
    | cons name names ih => exact fun t => (ih _).trans (t.plain_layOutClass name)
  exact hall t.order t

theorem Ordered.congr {t t' : ClassTable} (h : t.Ordered) (hplain : t'.plain = t.plain) :
    t'.Ordered := by
  have hnames : ∀ t : ClassTable, t.plain.entries.map (·.name) = t.entries.map (·.name) := by
    intro t
    simp [plain, Function.comp_def, ClassInfo.plain]
  have horder : t'.order = t.order := (congrArg ClassTable.order hplain :)
  have htypes : t'.types = t.types := (congrArg ClassTable.types hplain :)
  refine ⟨?_, ?_, ?_, ?_⟩
  · rw [← hnames, hplain, hnames, h.names, horder]
  · rw [horder]
    exact h.nodup
  · rw [htypes, horder]
    exact h.types
  · intro before name after hsplit parent hp
    rw [← parent?_plain, hplain, parent?_plain] at hp
    exact h.parents before name after (horder ▸ hsplit) parent hp

end ClassTable

end ClassCheck
