import StatementTable.Proofs.Nesting
import StatementTable.Service.Request

/-!
# The depth of values

The depth of a value is the number of containers that are inside one another in it.  While a text
is read under a limit, whatever has been read of the open containers leaves room within the limit
for the containers around it.  So no value is read that is deeper than the limit.  Members that
were replaced by later ones count for the text but not for the value, which may thus be less deep
than its text is nested.
-/

namespace StatementTable

/-- What every step keeps, a run keeps. -/
theorem of_foldlM_eq_some
    {σ τ : Type} {step : σ → τ → Option σ} {P : σ → Prop}
    (hstep : ∀ {s t s'}, P s → step s t = some s' → P s') {ts : List τ} {s s' : σ} (h : P s)
    (hrun : ts.foldlM step s = some s') : P s' := by
  induction ts generalizing s with
  | nil =>
      obtain rfl := Option.some.inj hrun
      exact h
  | cons t ts ih =>
      rw [List.foldlM_cons] at hrun
      obtain ⟨next, hnext, hrun⟩ := Option.bind_eq_some_iff.mp hrun
      exact ih (hstep h hnext) hrun

namespace Json

namespace Value

mutual

/-- The number of containers inside one another in a value. -/
def depth : Value → Nat
  | .array items => itemDepth items + 1
  | .object members => memberDepth members + 1
  | .null | .bool _ | .number _ | .string _ => 0

def itemDepth : List Value → Nat
  | [] => 0
  | item :: items => max (depth item) (itemDepth items)

def memberDepth : List (String × Value) → Nat
  | [] => 0
  | (_, value) :: members => max (depth value) (memberDepth members)

end

theorem itemDepth_le_iff {items : List Value} {limit : Nat} :
    itemDepth items ≤ limit ↔ ∀ item ∈ items, item.depth ≤ limit := by
  induction items with
  | nil => simp [itemDepth]
  | cons item items ih => rw [itemDepth, Nat.max_le, ih, List.forall_mem_cons]

theorem memberDepth_le_iff {members : Members} {limit : Nat} :
    memberDepth members ≤ limit ↔ ∀ member ∈ members, member.2.depth ≤ limit := by
  induction members with
  | nil => simp [memberDepth]
  | cons member members ih => rw [memberDepth, Nat.max_le, ih, List.forall_mem_cons]

theorem depth_lt_of_mem_array {v : Value} {items : List Value} (h : v ∈ items) :
    v.depth < (Value.array items).depth := by
  rw [depth]
  exact Nat.lt_succ_of_le (itemDepth_le_iff.mp (Nat.le_refl _) v h)

theorem depth_lt_of_get?_eq_some
    {members : Members} {key : String} {v : Value} (h : members.get? key = some v) :
    v.depth < (Value.object members).depth := by
  rw [depth]
  exact Nat.lt_succ_of_le
    (memberDepth_le_iff.mp (Nat.le_refl _) _ (Members.mem_of_get?_eq_some h))

theorem depth_array_reverse (items : List Value) :
    (Value.array items.reverse).depth = (Value.array items).depth := by
  have hle : ∀ limit, itemDepth items.reverse ≤ limit ↔ itemDepth items ≤ limit := by
    intro limit
    simp only [itemDepth_le_iff, List.mem_reverse]
  have heq : itemDepth items.reverse = itemDepth items :=
    Nat.le_antisymm ((hle _).mpr (Nat.le_refl _)) ((hle _).mp (Nat.le_refl _))
  rw [depth, depth, heq]

end Value

theorem Members.mem_of_mem_insert
    {members : Members} {key : String} {value : Value} {member : String × Value}
    (h : member ∈ members.insert key value) : member = (key, value) ∨ member ∈ members := by
  induction members with
  | nil => exact Or.inl (List.mem_singleton.mp h)
  | cons first rest ih =>
      rw [insert] at h
      split_ifs at h with hlt heq
      · simpa using h
      · rcases List.mem_cons.mp h with h | h
        · exact Or.inl h
        · exact Or.inr (List.mem_cons_of_mem first h)
      · rcases List.mem_cons.mp h with h | h
        · exact Or.inr (h ▸ List.mem_cons_self)
        · exact (ih h).imp_right (List.mem_cons_of_mem first)

theorem Value.memberDepth_insert_le (members : Members) (key : String) (value : Value) :
    memberDepth (members.insert key value) ≤ max value.depth (memberDepth members) := by
  rw [memberDepth_le_iff]
  intro member hmember
  rcases Members.mem_of_mem_insert hmember with rfl | hmember
  · exact Nat.le_max_left _ _
  · exact Nat.le_trans (memberDepth_le_iff.mp (Nat.le_refl _) member hmember)
      (Nat.le_max_right _ _)

/-! ## Reading under a limit -/

/-- An open container as far as it has been read, with its items in reverse. -/
def Frame.content : Frame → Value
  | .array items => .array items
  | .object members _ => .object members

namespace Builder

/-- What has been read of the open containers, or of the whole value once it is complete. -/
def contents : Builder → List Value
  | .expectValue stack => stack.map Frame.content
  | .firstItem stack => .array [] :: stack.map Frame.content
  | .afterItem stack items => .array items :: stack.map Frame.content
  | .expectKey stack members _ | .expectColon stack members _ | .afterMember stack members =>
    .object members :: stack.map Frame.content
  | .done value => [value]

/-- Each of some values inside one another leaves room within a limit for those around it. -/
def Fit (limit : Nat) : List Value → Prop
  | [] => True
  | v :: around => v.depth + around.length ≤ limit ∧ Fit limit around

variable {limit : Nat} {stack : List Frame}

theorem length_le_of_fit (h : Fit limit (stack.map Frame.content)) : stack.length ≤ limit := by
  cases stack with
  | nil => exact Nat.zero_le limit
  | cons frame stack =>
      have hdepth : 1 ≤ frame.content.depth := by
        cases frame <;> simp [Frame.content, Value.depth]
      have hroom := h.1
      rw [List.length_map] at hroom
      rw [List.length_cons]
      omega

theorem fit_complete
    {value : Value} (h : Fit limit (stack.map Frame.content))
    (hvalue : value.depth + stack.length ≤ limit) : Fit limit (complete stack value).contents := by
  cases stack with
  | nil => exact ⟨hvalue, trivial⟩
  | cons frame stack =>
      obtain ⟨hroom, haround⟩ := h
      rw [List.length_cons] at hvalue
      cases frame with
      | array items =>
          refine ⟨?_, haround⟩
          simp only [Frame.content, Value.depth, Value.itemDepth] at hroom ⊢
          rw [List.length_map] at hroom ⊢
          omega
      | object members key =>
          refine ⟨?_, haround⟩
          have hinsert := Value.memberDepth_insert_le members key value
          simp only [Frame.content, Value.depth] at hroom ⊢
          rw [List.length_map] at hroom ⊢
          omega

theorem fit_open
    {container : Value} (h : Fit limit (stack.map Frame.content))
    (hopen : mayOpen (some limit) stack = true) (hcontainer : container.depth = 1) :
    Fit limit (container :: stack.map Frame.content) := by
  have hroom : stack.length < limit := of_decide_eq_true hopen
  refine ⟨?_, h⟩
  rw [hcontainer, List.length_map]
  omega

theorem fit_beginValue
    {token : Token} {b : Builder} (h : Fit limit (stack.map Frame.content))
    (hbegin : beginValue (some limit) stack token = some b) : Fit limit b.contents := by
  have hscalar : ∀ value : Value, value.depth = 0 → Fit limit (complete stack value).contents := by
    intro value hvalue
    apply fit_complete h
    rw [hvalue, Nat.zero_add]
    exact length_le_of_fit h
  revert hbegin
  fun_cases beginValue (some limit) stack token with
  | case1 | case2 | case3 | case4 =>
      rintro ⟨⟩
      exact hscalar _ (by rw [Value.depth])
  | case5 hopen =>
      rintro ⟨⟩
      exact fit_open h hopen (by simp [Value.depth, Value.itemDepth])
  | case7 hopen =>
      rintro ⟨⟩
      exact fit_open h hopen (by simp [Value.depth, Value.memberDepth])
  | case6 | case8 | case9 =>
      intro hbegin
      cases hbegin

/-- A container that is closed fits as it did while it was open. -/
theorem fit_close
    {container closed : Value} (h : Fit limit (container :: stack.map Frame.content))
    (hdepth : closed.depth = container.depth) : Fit limit (complete stack closed).contents := by
  obtain ⟨hroom, haround⟩ := h
  apply fit_complete haround
  rw [hdepth]
  rwa [List.length_map] at hroom

/-- What has been read keeps fitting within the limit when a token is taken. -/
theorem fit_step
    {b b' : Builder} {token : Token} (h : Fit limit b.contents)
    (hstep : step (some limit) b token = some b') : Fit limit b'.contents := by
  revert hstep
  fun_cases step (some limit) b token with
  | case1 stack => exact fit_beginValue h
  | case2 stack | case7 stack | case10 stack =>
      rintro ⟨⟩
      exact fit_close h rfl
  | case3 stack =>
      have hstack : Fit limit ((Frame.array [] :: stack).map Frame.content) := h
      exact fit_beginValue hstack
  | case5 stack items =>
      rintro ⟨⟩
      exact fit_close h (Value.depth_array_reverse items)
  | case4 | case6 | case8 | case9 =>
      rintro ⟨⟩
      exact h
  | case11 =>
      intro hstep
      cases hstep

/-- A value that is built under a limit is not deeper than the limit. -/
theorem depth_le_of_build
    {tokens : List Token} {v : Value} (h : build (some limit) tokens = some v) :
    v.depth ≤ limit := by
  obtain ⟨b, hrun, hresult⟩ := Option.bind_eq_some_iff.mp h
  have hstart : Fit limit start.contents := trivial
  have hfit : Fit limit b.contents := of_foldlM_eq_some fit_step hstart hrun
  cases b with
  | done value =>
      obtain rfl := Option.some.inj hresult
      exact hfit.1
  | _ => cases hresult

end Builder

theorem depth_le_of_parse {text : String} {v : Value} (h : parse text = some v) :
    v.depth ≤ nestingLimit := by
  obtain ⟨tokens, -, hbuild⟩ := Option.bind_eq_some_iff.mp h
  exact Builder.depth_le_of_build hbuild

end Json

/-! ## The parameters of a request -/

namespace Service

open Json (Value Token Builder)

/-- The parameters that have been noted leave room for the request around them. -/
def Draft.Fits (draft : Draft) : Prop :=
  ∀ params ∈ draft.params, params.depth < Json.nestingLimit

theorem Draft.fits_record
    {draft draft' : Draft} {field : Field} {v : Value} (h : draft.Fits)
    (hvalue : field = .params → v.depth < Json.nestingLimit)
    (hrecord : draft.record field v = some draft') : draft'.Fits := by
  revert hrecord
  fun_cases Draft.record draft field v with
  | case1 =>
      rintro ⟨⟩
      exact h
  | case2 =>
      rintro ⟨⟩ params hparams
      obtain rfl := Option.some.inj hparams
      exact hvalue rfl
  | case3 =>
      rintro ⟨⟩
      exact h
  | case4 => exact nofun

namespace Reading

/-- What has been read of a request leaves room for the request around it. -/
def Fits : Reading → Prop
  | .opening => True
  | .key draft _ | .colon draft _ | .separator draft _ | .closed draft => draft.Fits
  | .value draft _ field builder =>
    draft.Fits ∧ (field = .params → Builder.Fit (Json.nestingLimit - 1) builder.contents)

theorem fits_stepValue
    {draft : Draft} {form : Form} {field : Field} {builder : Builder} {token : Token}
    {reading : Reading} (h : Fits (.value draft form field builder))
    (hstep : stepValue draft form field builder token = some reading) : reading.Fits := by
  obtain ⟨hdraft, hbuilder⟩ := h
  have hnext : ∀ next, builder.step field.limit (field.accept token) = some next →
      field = .params → Builder.Fit (Json.nestingLimit - 1) next.contents := by
    rintro next hnext rfl
    exact Builder.fit_step (hbuilder rfl) hnext
  rw [stepValue] at hstep
  split at hstep
  · cases hstep
  · next v hdone =>
    obtain ⟨draft', hrecord, rfl⟩ := Option.map_eq_some_iff.mp hstep
    refine Draft.fits_record hdraft ?_ hrecord
    intro hfield
    exact Nat.lt_succ_of_le (hnext _ hdone hfield).1
  · next next _ hmore =>
    obtain rfl := Option.some.inj hstep
    exact ⟨hdraft, hnext next hmore⟩

/-- What has been read of a request keeps leaving room for it when a token is taken. -/
theorem fits_step
    {reading reading' : Reading} {token : Token} (h : reading.Fits)
    (hstep : reading.step token = some reading') : reading'.Fits := by
  have hempty : Draft.Fits {} := by simp [Draft.Fits]
  revert hstep
  fun_cases Reading.step reading token with
  | case1 =>
      rintro ⟨⟩
      exact hempty
  | case2 =>
      rintro ⟨⟩
      exact ⟨hempty, fun _ => trivial⟩
  | case5 =>
      rintro ⟨⟩
      exact ⟨h, fun _ => trivial⟩
  | case6 => exact fits_stepValue h
  | case9 =>
      intro hstep
      obtain ⟨field, -, rfl⟩ := Option.map_eq_some_iff.mp hstep
      exact ⟨h, fun _ => trivial⟩
  | case3 | case4 | case7 | case8 | case10 =>
      rintro ⟨⟩
      exact h
  | case11 | case12 => exact nofun

end Reading

theorem Draft.params_eq_of_request
    {draft : Draft} {request : Request} {params : Value} (h : draft.request = some request)
    (hparams : request.params = some params) : draft.params = some params := by
  obtain ⟨command, -, rfl⟩ := Option.map_eq_some_iff.mp h
  revert hparams
  cases hdraft : draft.params with
  | none => exact id
  | some v =>
      cases v with
      | null => exact nofun
      | _ => exact id

/-- The parameters of a request are less deep than a text may be nested. -/
theorem depth_lt_of_read
    {line : String} {request : Request} {params : Value} (h : Request.read line = some request)
    (hparams : request.params = some params) : params.depth < Json.nestingLimit := by
  simp only [Request.read, Option.bind_eq_bind, Option.bind_eq_some_iff] at h
  obtain ⟨tokens, -, reading, hrun, hresult⟩ := h
  have hopening : Reading.opening.Fits := trivial
  have hfits : reading.Fits := of_foldlM_eq_some Reading.fits_step hopening hrun
  cases reading with
  | closed draft => exact hfits params (Draft.params_eq_of_request hresult hparams)
  | _ => cases hresult

end Service

end StatementTable
