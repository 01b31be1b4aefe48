import ClassCheck.Proofs.ClassTable.Marks
import ClassCheck.Proofs.Declare.Members

/-!
# Declared names are distinct

Nothing can be declared twice: not a field or a method in a class, nor a parameter or a local in a
method. So in the table of a program every variable is known by its place and its name.
-/

namespace ClassCheck

/-! ## Searching by name -/

theorem split_of_nodup {α : Type} {key : α → String} {xs : List α} (h : (xs.map key).Nodup) {x : α}
    (hx : x ∈ xs) :
    ∃ before after, xs = before ++ x :: after ∧ (∀ y ∈ before, key y ≠ key x) ∧
      ∀ y ∈ after, key y ≠ key x := by
  have hpairwise := List.pairwise_map.1 h
  obtain ⟨before, after, rfl⟩ := List.append_of_mem hx
  rw [List.pairwise_append, List.pairwise_cons] at hpairwise
  refine ⟨before, after, rfl, ?_, ?_⟩
  · exact fun y hy => hpairwise.2.2 y hy x List.mem_cons_self
  · exact fun y hy => (hpairwise.2.1.1 y hy).symm

theorem find?_of_nodup {α : Type} {key : α → String} {xs : List α} (h : (xs.map key).Nodup) {x : α}
    (hx : x ∈ xs) : xs.find? (key · == key x) = some x := by
  obtain ⟨before, after, rfl, hnone, -⟩ := split_of_nodup h hx
  have hbefore : before.find? (key · == key x) = none := by
    rw [List.find?_eq_none]
    simpa using hnone
  simp [List.find?_append, hbefore]

/-! ## Variables of a method -/

namespace MethodInfo

variable {m m' : MethodInfo} {v : Variable}

theorem indexed_empty (name owner : String) (returnType : Ty) :
    Indexed { name, owner, returnType } := by
  intro n slot
  cases slot <;> simp [slot?, varAt?]

theorem Indexed.extend (h : m.Indexed) {s : Slot} (hnew : m.slot? v.name = none)
    (hfree : m.varAt? s = none)
    (hslot : ∀ name, m'.slot? name = if name = v.name then some s else m.slot? name)
    (hvar : ∀ slot, m'.varAt? slot = if slot = s then some v else m.varAt? slot) : m'.Indexed := by
  intro name slot
  rw [hslot, hvar]
  by_cases hname : name = v.name
  · subst hname
    by_cases hs : slot = s
    · simp [hs]
    · have hold := h v.name slot
      simp only [hnew, reduceCtorEq, false_iff] at hold
      simp [hs, hold, Ne.symm hs]
  · by_cases hs : slot = s
    · have hold := h name s
      simp only [hfree, Option.map_none, reduceCtorEq, iff_false] at hold
      simp [hs, hname, hold, Ne.symm hname]
    · simp [hs, hname, h name slot]

theorem getElem?_concat (vs : List Variable) (i : Nat) :
    (vs ++ [v])[i]? = if i = vs.length then some v else vs[i]? := by
  by_cases hi : i = vs.length
  · simp [hi]
  · rw [if_neg hi]
    rcases Nat.lt_or_gt_of_ne hi with hlt | hgt
    · exact List.getElem?_append_left hlt
    · rw [List.getElem?_eq_none (by simp; omega), List.getElem?_eq_none (by omega)]

theorem varAt?_addParam (m : MethodInfo) (v : Variable) (slot : Slot) :
    (m.addParam v).varAt? slot = if slot = .param m.params.length then some v else m.varAt? slot := by
  cases slot with
  | param i => simpa [varAt?, addParam] using getElem?_concat m.params i
  | localVar i => simp [varAt?, addParam]

theorem varAt?_addLocal (m : MethodInfo) (v : Variable) (slot : Slot) :
    (m.addLocal v).varAt? slot = if slot = .localVar m.locals.length then some v else m.varAt? slot := by
  cases slot with
  | param i => simp [varAt?, addLocal]
  | localVar i => simpa [varAt?, addLocal] using getElem?_concat m.locals i

theorem Indexed.addParam (h : m.Indexed) (hnew : m.slot? v.name = none) : (m.addParam v).Indexed :=
  h.extend hnew (by simp [varAt?]) (m.slot?_addParam v) (m.varAt?_addParam v)

theorem Indexed.addLocal (h : m.Indexed) (hnew : m.slot? v.name = none) : (m.addLocal v).Indexed :=
  h.extend hnew (by simp [varAt?]) (m.slot?_addLocal v) (m.varAt?_addLocal v)

theorem Indexed.slot?_eq_none (h : m.Indexed) (hlocals : m.locals = []) {name : String}
    (hparam : m.hasParam name = false) : m.slot? name = none := by
  unfold hasParam at hparam
  cases hslot : m.slot? name with
  | none => rfl
  | some slot =>
    cases slot with
    | param i => simp [hslot] at hparam
    | localVar i =>
      have hvar := (h name _).1 hslot
      simp [varAt?, hlocals] at hvar

end MethodInfo

namespace ClassTable

variable {t t' : ClassTable} {c c' : ClassInfo} {m m' : MethodInfo}

/-! ## Loops over declarations -/

theorem invariant_of_loop_ok {σ : Type} {loop : σ → List VarDecl → Except SemanticError σ}
    {taken : σ → VarDecl → Bool} {e : σ → VarDecl → SemanticError} {add : σ → VarDecl → Ty → σ}
    (hnil : ∀ s, loop s [] = .ok s)
    (hcons : ∀ s d ds, loop s (d :: ds) = do
      let type ← t.knownType d.type d.name.name
      if taken s d then .error (e s d) else loop (add s d type) ds)
    {I : σ → Prop} (hstep : ∀ s d ty, taken s d = false → I s → I (add s d ty))
    {ds : List VarDecl} {s s' : σ} (h : loop s ds = .ok s') (hs : I s) : I s' := by
  induction ds generalizing s with
  | nil =>
    rw [hnil] at h
    obtain rfl := Except.ok.inj h
    exact hs
  | cons d ds ih =>
    rw [hcons] at h
    obtain ⟨ty, -, h⟩ := Outcome.bind_eq_ok.1 h
    obtain ⟨hfree, h⟩ := Outcome.ite_error_eq_ok.1 h
    exact ih h (hstep s d ty (by simpa using hfree) hs)

theorem indexed_declareParams {ds : List VarDecl} (h : t.declareParams m ds = .ok m')
    (hm : m.Indexed) (hlocals : m.locals = []) : m'.Indexed := by
  have hinv : m'.Indexed ∧ m'.locals = [] := by
    apply invariant_of_loop_ok (fun _ => rfl) (fun _ _ _ => rfl) _ h ⟨hm, hlocals⟩
    rintro s d ty htaken ⟨hs, hl⟩
    exact ⟨hs.addParam (hs.slot?_eq_none hl htaken), hl⟩
  exact hinv.1

theorem indexed_declareLocals {ds : List VarDecl} (h : t.declareLocals m ds = .ok m')
    (hm : m.Indexed) : m'.Indexed := by
  apply invariant_of_loop_ok (fun _ => rfl) (fun _ _ _ => rfl) _ h hm
  intro s d ty htaken hs
  exact hs.addLocal (by simpa [MethodInfo.hasVariable] using htaken)

theorem nodup_concat {names : List String} {name : String} (h : names.Nodup) (hnew : name ∉ names) :
    (names ++ [name]).Nodup := by
  rw [List.nodup_append]
  refine ⟨h, by simp, ?_⟩
  rintro a ha b hb rfl
  exact hnew (List.mem_singleton.1 hb ▸ ha)

theorem distinct_declareFields {ds : List VarDecl} (h : t.declareFields c ds = .ok c')
    (hc : c.Distinct) : c'.Distinct := by
  apply invariant_of_loop_ok (fun _ => rfl) (fun _ _ _ => rfl) _ h hc
  intro s d ty htaken hs
  refine ⟨?_, hs.methods, hs.indexed⟩
  rw [List.map_append]
  apply nodup_concat hs.fields
  simpa [ClassInfo.field?] using htaken

/-! ## Methods and classes -/

theorem distinct_declareMethod {d : MethodDecl} (h : t.declareMethod c d = .ok c')
    (hc : c.Distinct) : c'.Distinct := by
  obtain ⟨ty, -, h⟩ := Outcome.bind_eq_ok.1 h
  obtain ⟨hfree, h⟩ := Outcome.ite_error_eq_ok.1 h
  obtain ⟨-, h⟩ := Outcome.ite_error_eq_ok.1 h
  obtain ⟨head, hhead, h⟩ := Outcome.bind_eq_ok.1 h
  obtain ⟨⟨⟩, -, h⟩ := Outcome.bind_eq_ok.1 h
  obtain ⟨m, hm, h⟩ := Outcome.bind_eq_ok.1 h
  obtain rfl := Except.ok.inj h
  have hindexed : m.Indexed :=
    indexed_declareLocals hm (indexed_declareParams hhead (MethodInfo.indexed_empty _ _ _) rfl)
  have hname : m.name = d.name.name := by
    rw [(declareLocals_ok hm).1, (declareParams_ok hhead).1,
      (MethodInfo.foldl_addLocal _ _ _).2.2.1, (MethodInfo.foldl_addParam _ _ _).2.2.1]
  refine ⟨hc.fields, ?_, List.forall_mem_append.2 ⟨hc.indexed, List.forall_mem_singleton.2 hindexed⟩⟩
  rw [List.map_append]
  apply nodup_concat hc.methods
  simpa [hname, ClassInfo.method?] using hfree

theorem distinct_declareMethods {ds : List MethodDecl} (h : t.declareMethods c ds = .ok c')
    (hc : c.Distinct) : c'.Distinct := by
  induction ds generalizing c with
  | nil =>
    obtain rfl := Except.ok.inj h
    exact hc
  | cons d ds ih =>
    obtain ⟨c₁, hc₁, h⟩ := Outcome.bind_eq_ok.1 h
    exact ih h (distinct_declareMethod hc₁ hc)

theorem distinct_fillClass {d : ClassDecl} (h : t.fillClass d = .ok t') : d.declared.Distinct := by
  obtain ⟨c₁, hc₁, h⟩ := Outcome.bind_eq_ok.1 h
  obtain ⟨c₂, hc₂, -⟩ := Outcome.bind_eq_ok.1 h
  have hd : c₂.Distinct :=
    distinct_declareMethods hc₂ (distinct_declareFields hc₁ ⟨List.nodup_nil, List.nodup_nil, nofun⟩)
  obtain ⟨rfl, -⟩ := declareFields_ok hc₁
  obtain ⟨rfl, -⟩ := declareMethods_ok hc₂
  simpa [ClassDecl.declared] using hd

theorem distinct_fillClasses {ds : List ClassDecl} (h : t.fillClasses ds = .ok t') :
    ∀ d ∈ ds, d.declared.Distinct := by
  induction ds generalizing t with
  | nil => exact List.forall_mem_nil _
  | cons d ds ih =>
    obtain ⟨t₁, hfill, h⟩ := Outcome.bind_eq_ok.1 h
    exact List.forall_mem_cons.2 ⟨distinct_fillClass hfill, ih h⟩

theorem distinct_fillMain {d : MainClass} (h : t.fillMain d = .ok t') : d.declared.Distinct := by
  obtain ⟨m, hm, -⟩ := Outcome.bind_eq_ok.1 h
  have hindexed : m.Indexed := by
    apply indexed_declareLocals hm
    exact (MethodInfo.indexed_empty _ _ _).addParam rfl
  obtain ⟨rfl, -⟩ := declareLocals_ok hm
  exact ⟨List.nodup_nil, by simp [MainClass.declared], List.forall_mem_singleton.2 hindexed⟩

theorem classes_eq {cs : List ClassInfo} (hnames : cs.map (·.name) = t.order)
    (hget : ∀ c ∈ cs, t.get? c.name = some c) : t.classes = cs := by
  rw [classes, ← hnames]
  clear hnames
  induction cs with
  | nil => rfl
  | cons c cs ih =>
    rw [List.forall_mem_cons] at hget
    rw [List.map_cons, List.filterMap_cons_some hget.1, ih hget.2]

theorem Ordered.get?_of_mem (h : t.Ordered) (hc : c ∈ t.entries) : t.get? c.name = some c :=
  find?_of_nodup (h.names ▸ h.nodup) hc

end ClassTable

theorem Program.distinct_declareMembers {p : Program} {t₀ t : ClassTable}
    (h₀ : p.declareClasses.outcome = .ok t₀) (h : (p.declareMembers t₀).outcome = .ok t) :
    t.Distinct := by
  have hin := Program.declaredIn_declareMembers h₀ h
  obtain ⟨t₁, hmain, hclasses⟩ := Outcome.bind_eq_ok.1 (Program.declareMembers_ok_iff.1 h)
  refine ⟨hin.ordered.names ▸ hin.ordered.nodup, fun c hc => ?_⟩
  rcases hin.eq_declared (hin.ordered.get?_of_mem hc) with rfl | ⟨d, hd, -, rfl⟩
  · exact ClassTable.distinct_fillMain hmain
  · exact ClassTable.distinct_fillClasses hclasses d hd

end ClassCheck
