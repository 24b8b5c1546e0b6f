import Polymind.Security.Equiv.Invariant
import Mathlib.Logic.Equiv.Basic

/-!
# The rows of a tenant

`Agree` says that two states have the rows of a tenant in common, up to swapping the ids of two
grants; `Untouched`, that two states have all the other rows in common.  For a principal of the tenant
every check has one outcome in states that agree (`checkDocument_agree`, `checkSnapshot_agree`), and
the updates of its methods keep the agreement.
-/

namespace Polymind.Security

variable {U : Type} [DecidableEq U] {env : AuthorityEnv U} {draws : Draws U} {T : U}

/-- The grant with the other of two ids. -/
def GrantRow.swap (a b : U) (g : GrantRow U) : GrantRow U := { g with grantId := Equiv.swap a b g.grantId }

@[simp] theorem GrantRow.swap_swap (a b : U) (g : GrantRow U) : (g.swap a b).swap a b = g := by
  simp [GrantRow.swap]

@[simp] theorem GrantRow.swap_document (a b : U) (g : GrantRow U) : (g.swap a b).document = g.document :=
  rfl

@[simp] theorem GrantRow.swap_grantee (a b : U) (g : GrantRow U) : (g.swap a b).grantee = g.grantee := rfl

theorem GrantRow.swap_of_ne {a b : U} {g : GrantRow U} (ha : g.grantId ≠ a) (hb : g.grantId ≠ b) :
    g.swap a b = g := by
  unfold GrantRow.swap
  rw [Equiv.swap_apply_of_ne_of_ne ha hb]

/-- The document is one of the tenant. -/
def Tables.DocumentOf (t : Tables U) (document tenant : U) : Prop :=
  ∃ d ∈ t.documents, d.document = document ∧ d.tenant = tenant

/-- Two states have the rows of a tenant in common. -/
structure Common (T : U) (t t' : Tables U) : Prop where
  principals : ∀ r : PrincipalRow U, r.tenant = T → (r ∈ t.principals ↔ r ∈ t'.principals)
  documents : ∀ d : DocumentRow U, d.tenant = T → (d ∈ t.documents ↔ d ∈ t'.documents)
  grants : ∀ g : GrantRow U, t.DocumentOf g.document T → (g ∈ t.grants ↔ g ∈ t'.grants)
  purge : ∀ r : PurgeRow U, t.DocumentOf r.document T → (r ∈ t.purge ↔ r ∈ t'.purge)

/-- Two states have the rows of a tenant in common, up to swapping two ids of grants. -/
structure Agree (a b T : U) (t t' : Tables U) : Prop where
  principals : ∀ r : PrincipalRow U, r.tenant = T → (r ∈ t.principals ↔ r ∈ t'.principals)
  documents : ∀ d : DocumentRow U, d.tenant = T → (d ∈ t.documents ↔ d ∈ t'.documents)
  grants : ∀ g : GrantRow U, t.DocumentOf g.document T → (g ∈ t.grants ↔ g.swap a b ∈ t'.grants)
  purge : ∀ r : PurgeRow U, t.DocumentOf r.document T → (r ∈ t.purge ↔ r ∈ t'.purge)

/-- Two states have the rows of the other tenants in common. -/
structure Untouched (T : U) (t t' : Tables U) : Prop where
  principals : ∀ r : PrincipalRow U, r.tenant ≠ T → (r ∈ t'.principals ↔ r ∈ t.principals)
  documents : ∀ d : DocumentRow U, d.tenant ≠ T → (d ∈ t'.documents ↔ d ∈ t.documents)
  grants : ∀ g : GrantRow U, ¬t.DocumentOf g.document T → (g ∈ t'.grants ↔ g ∈ t.grants)
  purge : ∀ r : PurgeRow U, ¬t.DocumentOf r.document T → (r ∈ t'.purge ↔ r ∈ t.purge)

omit [DecidableEq U] in
theorem Untouched.refl (t : Tables U) : Untouched T t t :=
  ⟨fun _ _ => Iff.rfl, fun _ _ => Iff.rfl, fun _ _ => Iff.rfl, fun _ _ => Iff.rfl⟩

section Agree

variable {a b : U} {t t' : Tables U}

/-- Ids that no grant has yet make no difference. -/
theorem Common.agree (h : Common T t t') (ha : ∀ g ∈ t.grants, g.grantId ≠ a)
    (hb : ∀ g ∈ t'.grants, g.grantId ≠ b) : Agree a b T t t' := by
  refine { h with grants := fun g hof => ?_ }
  by_cases hga : g.grantId = a
  · -- neither the grant nor the one with the other id is there
    have hid : (g.swap a b).grantId = b := by simp [GrantRow.swap, hga]
    exact ⟨fun hg => absurd hga (ha g hg), fun hg => absurd hid (hb _ hg)⟩
  · by_cases hgb : g.grantId = b
    · have hid : (g.swap a b).grantId = a := by simp [GrantRow.swap, hgb]
      exact ⟨fun hg => absurd hgb (hb g ((h.grants g hof).mp hg)),
        fun hg => absurd hid (ha _ ((h.grants (g.swap a b) hof).mpr hg))⟩
    · rw [GrantRow.swap_of_ne hga hgb]
      exact h.grants g hof

theorem Agree.documentOf (h : Agree a b T t t') {document : U} :
    t.DocumentOf document T ↔ t'.DocumentOf document T := by
  constructor
  · rintro ⟨d, hd, hid, htenant⟩
    exact ⟨d, (h.documents d htenant).mp hd, hid, htenant⟩
  · rintro ⟨d, hd, hid, htenant⟩
    exact ⟨d, (h.documents d htenant).mpr hd, hid, htenant⟩

/-! ### Lookups -/

section Lookups

variable (hk : Keyed t) (hk' : Keyed t') (h : Agree a b T t t')

include hk hk' h

theorem principal?_agree {owner : U} {p : PrincipalRow U → Bool} (hp : ∀ r, p r = true → r.tenant = T) :
    (t.principal? owner).filter p = (t'.principal? owner).filter p :=
  Table.filter_lookup_congr hk.principals hk'.principals fun r hr => h.principals r (hp r hr)

theorem document?_agree {key : Option U} {p : DocumentRow U → Bool} (hp : ∀ d, p d = true → d.tenant = T) :
    (t.document? key).filter p = (t'.document? key).filter p := by
  cases key with
  | none => rfl
  | some u =>
    exact Table.filter_lookup_congr hk.documents hk'.documents fun d hd => h.documents d (hp d hd)

theorem purge?_agree {document : U} (hof : t.DocumentOf document T) :
    t.purge? document = t'.purge? document :=
  Table.lookup_congr hk.purge hk'.purge fun r hr => h.purge r (hr ▸ hof)

/-- The grant that a lookup finds, by the other id. -/
theorem grant?_agree {document grantee : U} (hof : t.DocumentOf document T) :
    t'.grant? document grantee = (t.grant? document grantee).map (GrantRow.swap a b) := by
  unfold Tables.grant?
  ext g
  rw [Table.lookup_eq_some_iff hk'.grants, Option.map_eq_some_iff]
  constructor
  · rintro ⟨hg, hkey⟩
    refine ⟨g.swap a b, ?_, GrantRow.swap_swap a b g⟩
    rw [Table.lookup_eq_some_iff hk.grants]
    refine ⟨(h.grants _ ?_).mpr (by rw [GrantRow.swap_swap]; exact hg), hkey⟩
    have hdocument : g.document = document := congrArg Prod.fst hkey
    rw [GrantRow.swap_document, hdocument]
    exact hof
  · rintro ⟨g', hg', rfl⟩
    rw [Table.lookup_eq_some_iff hk.grants] at hg'
    refine ⟨(h.grants g' ?_).mp hg'.1, hg'.2⟩
    have hdocument : g'.document = document := congrArg Prod.fst hg'.2
    rw [hdocument]
    exact hof

/-! ### Checks -/

variable {p : Principal} (htenant : (p.scope env.toIds).tenant = T)

include htenant

theorem checkPrincipal_agree (now : ℚ) :
    checkPrincipal env now (.value p) t = checkPrincipal env now (.value p) t' := by
  unfold checkPrincipal
  simp only
  rw [principal?_agree hk hk' h fun r hr => (agrees_tenant hr).trans htenant]

theorem checkDocument_agree (now : ℚ) (action : Arg Action) (d : IdArg U) :
    checkDocument env now (.value p) action d t = checkDocument env now (.value p) action d t' := by
  unfold checkDocument
  rw [checkPrincipal_agree hk hk' h htenant]
  cases hp : checkPrincipal env now (.value p) t' with
  | error e => rfl
  | ok found =>
    obtain ⟨q, own⟩ := found
    obtain ⟨hq, -⟩ := checkPrincipal_ok hp
    cases hq
    cases action with
    | other n => rfl
    | value action =>
      cases d with
      | text u => rfl
      | other n => rfl
      | uuid u =>
        simp only
        rw [document?_agree hk hk' h fun d hd => (of_decide_eq_true hd).1.trans htenant]
        cases hd : (t'.document? (some u)).filter fun row =>
            row.tenant = (p.scope env.toIds).tenant ∧ row.state = .active with
        | none => rfl
        | some row =>
          obtain ⟨hrow, hfits⟩ := Option.filter_eq_some_iff.mp hd
          obtain ⟨hmem, hid⟩ := Tables.document?_mem hrow
          have hof : t.DocumentOf u T := h.documentOf.mpr
            ⟨row, hmem, (Option.some.inj hid).symm, (of_decide_eq_true hfits).1.trans htenant⟩
          -- whether a grant is open does not depend on its id
          have hgrant : ((t'.grant? u (p.scope env.toIds).owner).filter fun g => g.revoked.isNone).isNone
              = ((t.grant? u (p.scope env.toIds).owner).filter fun g => g.revoked.isNone).isNone := by
            rw [grant?_agree hk hk' h hof]
            cases t.grant? u (p.scope env.toIds).owner with
            | none => rfl
            | some g =>
              simp only [Option.map_some, Option.filter_some, GrantRow.swap]
              split <;> rfl
          simp only
          rw [hgrant]

theorem checkAction_agree (action : Arg Action) (resource : Resource U) :
    checkAction env draws.expiry (.value p) action resource t
      = checkAction env draws.expiry (.value p) action resource t' := by
  unfold checkAction
  rw [checkPrincipal_agree hk hk' h htenant]
  simp only [checkDocument_agree hk hk' h htenant]

theorem snapshotDocuments_agree (action : Arg Action) (i : Nat) (ds : List (IdArg U)) :
    snapshotDocuments env draws.expiry (.value p) action t i ds
      = snapshotDocuments env draws.expiry (.value p) action t' i ds := by
  induction ds generalizing i with
  | nil => rfl
  | cons d ds ih =>
    unfold snapshotDocuments
    rw [checkDocument_agree hk hk' h htenant, ih]

theorem takeSnapshot_agree (ds : List (IdArg U)) (action : Arg Action) :
    takeSnapshot env draws.expiry (.value p) ds action t = takeSnapshot env draws.expiry (.value p) ds action t' := by
  unfold takeSnapshot
  rw [checkPrincipal_agree hk hk' h htenant, snapshotDocuments_agree hk hk' h htenant]

theorem revalidateDocuments_agree {s : AuthorizationSnapshot U} (hs : s.principal = .value p) (i : Nat)
    (docs : List (IdArg U × Scope U × Nat)) :
    revalidateDocuments env draws.expiry s t i docs = revalidateDocuments env draws.expiry s t' i docs := by
  induction docs generalizing i with
  | nil => rfl
  | cons entry docs ih =>
    obtain ⟨d, scope, epoch⟩ := entry
    unfold revalidateDocuments
    rw [hs, checkDocument_agree hk hk' h htenant, ih]

theorem checkSnapshot_agree {s : AuthorizationSnapshot U} (hs : s.principal = .value p) :
    checkSnapshot env draws.expiry (.value s) t = checkSnapshot env draws.expiry (.value s) t' := by
  unfold checkSnapshot
  simp only
  rw [hs, checkPrincipal_agree hk hk' h htenant, revalidateDocuments_agree hk hk' h htenant hs]

end Lookups

/-! ### Updates -/

section Updates

variable {cond : DocumentRow U → Bool} {set : DocumentRow U → DocumentRow U}

omit [DecidableEq U] in
theorem documentOf_update (hset : ∀ d, (set d).document = d.document ∧ (set d).tenant = d.tenant)
    {grants : List (GrantRow U)} {purge : List (PurgeRow U)} {document : U} :
    Tables.DocumentOf { t with documents := Table.update cond set t.documents, grants, purge } document T
      ↔ t.DocumentOf document T := by
  constructor
  · rintro ⟨d, hd, hid, htenant⟩
    rcases Table.mem_update.mp hd with ⟨d₀, hd₀, -, rfl⟩ | ⟨hd, -⟩
    · exact ⟨d₀, hd₀, (hset d₀).1.symm.trans hid, (hset d₀).2.symm.trans htenant⟩
    · exact ⟨d, hd, hid, htenant⟩
  · refine Table.exists_update ?_ fun _ hd => hd
    intro d _ hd
    exact ⟨(hset d).1.trans hd.1, (hset d).2.trans hd.2⟩

/-- An update of the documents of both states keeps the agreement, with grants and purges that agree. -/
theorem Agree.update (h : Agree a b T t t')
    (hset : ∀ d, (set d).document = d.document ∧ (set d).tenant = d.tenant)
    {grants grants' : List (GrantRow U)} {purge purge' : List (PurgeRow U)}
    (hgrants : ∀ g : GrantRow U, t.DocumentOf g.document T → (g ∈ grants ↔ g.swap a b ∈ grants'))
    (hpurge : ∀ r : PurgeRow U, t.DocumentOf r.document T → (r ∈ purge ↔ r ∈ purge')) :
    Agree a b T { t with documents := Table.update cond set t.documents, grants, purge }
      { t' with documents := Table.update cond set t'.documents, grants := grants', purge := purge' } := by
  constructor
  · exact h.principals
  · intro d hd
    have hrow : d ∈ Table.update cond set t.documents ↔ id d ∈ Table.update cond set t'.documents := by
      refine Table.mem_update_iff (fun _ => rfl) (fun _ => rfl) (fun _ => rfl) ?_ h.documents hd
      exact fun r => by rw [(hset r).2]
    exact hrow
  · exact fun g hof => hgrants g ((documentOf_update hset).mp hof)
  · exact fun r hof => hpurge r ((documentOf_update hset).mp hof)

omit [DecidableEq U] in
/-- An update of documents of the tenant leaves the rows of the others alone, with grants and purges that
do. -/
theorem Untouched.update (hcond : ∀ d ∈ t.documents, cond d = true → d.tenant = T)
    (hset : ∀ d, (set d).document = d.document ∧ (set d).tenant = d.tenant)
    {grants : List (GrantRow U)} {purge : List (PurgeRow U)}
    (hgrants : ∀ g : GrantRow U, ¬t.DocumentOf g.document T → (g ∈ grants ↔ g ∈ t.grants))
    (hpurge : ∀ r : PurgeRow U, ¬t.DocumentOf r.document T → (r ∈ purge ↔ r ∈ t.purge)) :
    Untouched T t { t with documents := Table.update cond set t.documents, grants, purge } := by
  constructor
  · exact fun _ _ => Iff.rfl
  · intro d hd
    refine Table.mem_update_of_not (P := fun d => d.tenant ≠ T) (fun r hr hc => ?_) hd
    exact ⟨not_not.mpr (hcond r hr hc), not_not.mpr ((hset r).2.trans (hcond r hr hc))⟩
  · exact hgrants
  · exact hpurge

/-- An update of the grants of a document of the tenant, the same in both states. -/
theorem mem_grants_iff (h : Agree a b T t t') {condG : GrantRow U → Bool}
    {setG : GrantRow U → GrantRow U} (hcond : ∀ g, condG (g.swap a b) = condG g)
    (hset : ∀ g, setG (g.swap a b) = (setG g).swap a b ∧ (setG g).document = g.document)
    {g : GrantRow U} (hof : t.DocumentOf g.document T) :
    g ∈ Table.update condG setG t.grants ↔ g.swap a b ∈ Table.update condG setG t'.grants := by
  refine Table.mem_update_iff (GrantRow.swap_swap a b) hcond (fun g => (hset g).1) ?_ h.grants hof
  exact fun g => by rw [(hset g).2]

omit [DecidableEq U] in
theorem mem_grants_of_not {document : U} (hdocument : t.DocumentOf document T)
    {condG : GrantRow U → Bool} {setG : GrantRow U → GrantRow U}
    (hcond : ∀ g, condG g = true → g.document = document)
    (hset : ∀ g, (setG g).document = g.document) {g : GrantRow U} (hof : ¬t.DocumentOf g.document T) :
    g ∈ Table.update condG setG t.grants ↔ g ∈ t.grants := by
  refine Table.mem_update_of_not (P := fun g => ¬t.DocumentOf g.document T) (fun g _ hc => ?_) hof
  rw [hset g, hcond g hc]
  exact ⟨not_not.mpr hdocument, not_not.mpr hdocument⟩

end Updates

end Agree

end Polymind.Security
