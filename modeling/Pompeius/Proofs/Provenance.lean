import Pompeius.Proofs.Documents
import Pompeius.Proofs.Registration

/-!
# Where what is stored comes from

Two readings of the backend, over every run and every schedule.

* **Accounts** are only ever added, each of them by a tap on Register whose
  form validates, under the email and the password of that form
  (`accounts_of_run`). So whatever the login form lets through, no account the
  program opens has a password its check refuses.

* **Documents.** Only the document `new` is ever written, and each of its
  fields holds what it held at the start or what some tap entered: a text typed
  on one of the three forms, the uid of an account that form opened, or a
  download URL of the object of the user who tapped (`users_traced`).

The second leans on the first, and on the order inside a registration: its
write is only ever made with the uid of an account that is already there.
-/

namespace Pompeius

open Lib Device

/-! ## Accounts -/

/-- The form of `t` validates, and `x` is the account it asks for. -/
def Tap.Opens (t : Tap) (x : Account) : Prop :=
  ∃ form, t.invocation = .registerButton form ∧ form.validateFields = .ok none ∧
    x.email = form.emailField.cleaned ∧ x.password = form.passwordField.cleaned

theorem Tap.Opens.isPasswordValid {t : Tap} {x : Account} (h : t.Opens x) :
    Utilities.isPasswordValid x.password = true := by
  obtain ⟨form, -, hvalid, -, hpassword⟩ := h
  rw [hpassword]
  exact RegisterViewController.isPasswordValid_of_validateFields hvalid

/-- A registration whose form does not validate asks nobody for anything. -/
theorem validateFields_of_life {t : Tap} {form : RegisterViewController} {call : Option Call}
    {ds : List Deed} (hinv : t.invocation = .registerButton form) (h : Life t call ds) :
    form.validateFields = .ok none ∨ call = none ∧ ∀ x ∈ ds, x.request? = none := by
  cases hvalid : Utilities.isPasswordValid form.passwordField.cleaned with
  | true =>
      rw [form.validateFields_eq, passwordOutcome_eq_none]
      exact .inl hvalid
  | false =>
      have heff : t.invocation.run t.user = .ok { ui := [.showError passwordPolicy] } := by
        rw [hinv]
        show form.registerButton = _
        rw [form.registerButton_eq, if_pos hvalid]
      obtain ⟨hcall, rfl⟩ := deeds_of_life heff rfl h
      refine .inr ⟨hcall, fun x hx => ?_⟩
      rw [List.mem_singleton.mp hx]
      rfl

/-- Two accounts nobody can mistake for each other. -/
def Account.Distinct (x y : Account) : Prop := x.email ≠ y.email ∧ x.uid ≠ y.uid

namespace Device

/-- The accounts of a device are those of `b` and, before them, new ones that
were opened by taps. -/
structure Opened (b : Backend) (d : Device) (opened : List Account) : Prop where
  accounts : d.accounts = opened ++ b.accounts
  byTaps : ∀ x ∈ opened, ∃ t ∈ d.taps, t.Opens x
  distinct : opened.Pairwise Account.Distinct
  fresh : ∀ x ∈ opened, ∀ y ∈ b.accounts, x.Distinct y

section

variable {b : Backend} {evs : List Event} {d d' : Device} {opened : List Account}

theorem Opened.of_accounts (h : Opened b d opened) (haccounts : d'.accounts = d.accounts)
    (htaps : d.taps <+: d'.taps) : Opened b d' opened where
  accounts := haccounts.trans h.accounts
  byTaps x hx := by
    obtain ⟨t, ht, hopens⟩ := h.byTaps x hx
    exact ⟨t, htaps.mem ht, hopens⟩
  distinct := h.distinct
  fresh := h.fresh

theorem Opened.cons (h : Opened b d opened) {t : Tap} (ht : t ∈ d.taps) {x : Account}
    (hopens : t.Opens x) (hx : ∀ y ∈ d.accounts, x.Distinct y)
    (haccounts : d'.accounts = x :: d.accounts) (htaps : d'.taps = d.taps) :
    Opened b d' (x :: opened) where
  accounts := by rw [haccounts, h.accounts]; rfl
  byTaps := by
    rw [htaps]
    exact List.forall_mem_cons.mpr ⟨⟨t, ht, hopens⟩, h.byTaps⟩
  distinct := by
    refine List.pairwise_cons.mpr ⟨fun y hy => hx y ?_, h.distinct⟩
    rw [h.accounts]
    exact List.mem_append_left _ hy
  fresh := by
    refine List.forall_mem_cons.mpr ⟨fun y hy => hx y ?_, h.fresh⟩
    rw [h.accounts]
    exact List.mem_append_right _ hy

/-- Nothing but `createUser` touches the accounts, and it adds the one it opens, which
is unlike all the others. -/
theorem accountsAfter_eq {b : Backend} {r : Request} {a : Answer} (h : b.permits r a = true) :
    b.accountsAfter r a = b.accounts ∨ ∃ email password firstName lastName reply uid,
      r = .createUser email password firstName lastName ∧ a = .createUser reply ∧
      reply.opened = some uid ∧ b.accountsAfter r a = ⟨email, password, uid⟩ :: b.accounts ∧
      ∀ y ∈ b.accounts, Account.Distinct ⟨email, password, uid⟩ y := by
  unfold Backend.accountsAfter
  split
  · rename_i email password firstName lastName reply
    cases hopened : reply.opened with
    | none => exact .inl rfl
    | some uid =>
        refine .inr ⟨_, _, _, _, _, _, rfl, rfl, hopened, rfl, fun y hy => ?_⟩
        obtain ⟨hemail, huid⟩ := unused_of_permits h hopened y hy
        exact ⟨Ne.symm hemail, Ne.symm huid⟩
  · exact .inl rfl

theorem opened_step {e : Event} (hl : Lives d) (h : Opened b d opened) (hs : Step d e d') :
    ∃ opened', Opened b d' opened' := by
  have hgrows := hs.grows.1
  cases hs with
  | @serve i r a hcall hperm _ =>
      obtain hsame | ⟨email, password, firstName, lastName, reply, uid, rfl, rfl, -, hadded,
        hdistinct⟩ := accountsAfter_eq hperm
      · exact ⟨opened, h.of_accounts hsame hgrows⟩
      · obtain ⟨t, ht⟩ := hl.exists_tap hcall
        have hlife := hl.born i t ht
        rw [hcall] at hlife
        have hissues : t.Issues (.createUser email password firstName lastName) :=
          (issues_of_life hlife).1 _ rfl
        cases hissues with
        | @createUser form hinv =>
            have hvalid := (validateFields_of_life hinv hlife).resolve_right fun h => nomatch h.1
            have hopens : t.Opens ⟨form.emailField.cleaned, form.passwordField.cleaned, uid⟩ :=
              ⟨form, hinv, hvalid, rfl, rfl⟩
            exact ⟨_, h.cons (List.mem_of_getElem? ht) hopens hdistinct hadded rfl⟩
  | _ => exact ⟨opened, h.of_accounts rfl hgrows⟩

/-- Accounts are only added, by registrations that validate. -/
theorem accounts_of_run (h : run next (launch b) evs = some d) :
    ∃ opened, d.accounts = opened ++ b.accounts ∧
      (∀ x ∈ opened, Utilities.isPasswordValid x.password = true ∧ ∃ t ∈ d.taps, t.Opens x) ∧
      opened.Pairwise Account.Distinct ∧ ∀ x ∈ opened, ∀ y ∈ b.accounts, x.Distinct y := by
  have hopened : ∃ opened, Opened b d opened := by
    refine (run_invariant (P := fun d => Lives d ∧ ∃ opened, Opened b d opened)
      (fun {d e d'} ih hs => ?_) ⟨lives_launch b, [], rfl, nofun, .nil, nofun⟩ h).2
    obtain ⟨hl, opened, hopened⟩ := ih
    have hstep := step_of_next hs
    exact ⟨lives_step hl hstep, opened_step hl hopened hstep⟩
  obtain ⟨opened, hopened⟩ := hopened
  refine ⟨opened, hopened.accounts, fun x hx => ?_, hopened.distinct, hopened.fresh⟩
  obtain ⟨t, ht, hopens⟩ := hopened.byTaps x hx
  exact ⟨hopens.isPasswordValid, t, ht, hopens⟩

end

end Device

/-! ## Documents -/

/-- The texts typed on the form of a tap, under the fields they are stored as. -/
def Tap.texts (t : Tap) : Dictionary :=
  match t.invocation with
  | .loginButton _ => []
  | .registerButton form =>
      [("firstName", form.firstNameField.cleaned), ("lastName", form.lastNameField.cleaned)]
  | .profileContinue form =>
      [("occupation", form.occupationTextField.cleaned), ("age", form.ageTextField.cleaned),
       ("height", form.heightTextField.cleaned), ("gender", form.genderTextField.cleaned),
       ("country of origin", form.countryOriginTextField.cleaned),
       ("country raised in", form.countryRaisedTextField.cleaned)]
  | .profile2Continue form =>
      [("current residence", form.currentResidenceTextField.cleaned),
       ("employment", form.employmentTextField.cleaned),
       ("religion standard", form.religiousnessTextField.cleaned),
       ("citizenship", form.citizenshipTextField.cleaned),
       ("age preference", form.preferenceTextField.cleaned)]

/-- What a tap can put into the shared document, field by field. -/
inductive Tap.Enters (t : Tap) (accounts : List Account) : String → String → Prop
  | text {k v : String} : (k, v) ∈ t.texts → Enters t accounts k v
  | uid {x : Account} : t.Opens x → x ∈ accounts → Enters t accounts "uid" x.uid
  | photo {form : MyProfileViewController} {user : User} (tokens : DownloadTokens) :
      t.invocation = .profileContinue form → t.user = some user →
      Enters t accounts "profileImageUrl"
        ((MyProfileViewController.storageProfileRef user.uid).downloadURL tokens)

/-- A registration that writes its document has its account. -/
theorem Enrol.created_of_writes {email password firstName lastName : String}
    {call : Option Call} {ds : List Deed} (h : Enrol email password firstName lastName call ds)
    {x : Deed} (hx : x ∈ ds) {w : DocumentWrite} {c : Bool}
    (hr : x.request? = some (.setData w c)) :
    ∃ uid, w = RegisterViewController.registrationWrite firstName lastName uid ∧
      .served (.createUser email password firstName lastName) (.createUser (.success uid)) ∈ ds := by
  -- past its creation the record is that of a created account, and on top of
  -- it deeds of the one write there is
  have hpast : ∀ uid ds', ds = ds' ++ createdDeeds email password firstName lastName uid →
      (∀ y ∈ ds', y.request? = some (.setData w c) →
        w = RegisterViewController.registrationWrite firstName lastName uid) →
      ∃ uid, w = RegisterViewController.registrationWrite firstName lastName uid ∧ .served
        (.createUser email password firstName lastName) (.createUser (.success uid)) ∈ ds := by
    intro uid ds' hds hnew
    refine ⟨uid, ?_, by rw [hds]; simp [createdDeeds]⟩
    rw [hds] at hx
    rcases List.mem_append.mp hx with hx | hx
    · exact hnew x hx hr
    · simp only [createdDeeds, List.mem_cons, List.not_mem_nil, or_false] at hx
      rcases hx with rfl | rfl | rfl | rfl | rfl <;> cases hr
      rfl
  cases h with
  | creating =>
      rw [List.mem_singleton.mp hx] at hr
      cases hr
  | created reply =>
      simp only [List.mem_cons, List.not_mem_nil, or_false] at hx
      rcases hx with rfl | rfl <;> cases hr
  | createFailed e =>
      simp only [List.mem_cons, List.not_mem_nil, or_false] at hx
      rcases hx with rfl | rfl | rfl | rfl <;> cases hr
  | storing uid => exact hpast uid [] rfl fun y hy _ => absurd hy List.not_mem_nil
  | stored uid reply =>
      refine hpast uid [_] rfl fun y hy hry => ?_
      rw [List.mem_singleton.mp hy] at hry
      cases hry
      rfl
  | finished uid reply told htold =>
      refine hpast uid (told ++ [_, _]) (List.append_assoc told [_, _] _).symm fun y hy hry => ?_
      rcases List.mem_append.mp hy with hy | hy
      · obtain ⟨message, rfl⟩ := htold y hy
        cases hry
      · simp only [List.mem_cons, List.not_mem_nil, or_false] at hy
        rcases hy with rfl | rfl <;> cases hry <;> rfl

/-- What a write leaves in a field it found there or brought along. -/
theorem DocumentWrite.of_result {w : DocumentWrite} {old : Option Document} {k v : String}
    (h : w.result old k = some v) :
    (∃ D₀, old = some D₀ ∧ D₀ k = some v) ∨ w.data.lookup k = some v := by
  cases hl : w.data.lookup k with
  | some v' =>
      have hwritten : w.result old k = some v' := by
        unfold result
        split <;> exact overlay_of_lookup hl
      exact .inr (hwritten.symm.trans h)
  | none =>
      have hkept : w.result old k = if w.merge then old.getD Doc.empty k else none := by
        unfold result
        split <;> rw [overlay_apply, hl, Option.none_or]
        rfl
      rw [hkept] at h
      split at h
      · cases old with
        | none => cases h
        | some D₀ => exact .inl ⟨D₀, rfl, h⟩
      · cases h

/-- Folded writes put into a document what one of them lists. -/
theorem mem_of_foldr_apply {ws : List (Nat × DocumentWrite)} {c : Collection}
    {document k v : String} {D : Document}
    (h : ws.foldr (fun p c => p.2.apply c) c document = some D) (hk : D k = some v) :
    (∃ D₀, c document = some D₀ ∧ D₀ k = some v) ∨ ∃ p ∈ ws, p.2.data.lookup k = some v := by
  induction ws generalizing D with
  | nil => exact .inl ⟨D, h, hk⟩
  | cons p ws ih =>
      have hold : ∀ D₀, ws.foldr (fun p c => p.2.apply c) c document = some D₀ →
          D₀ k = some v → (∃ D₀, c document = some D₀ ∧ D₀ k = some v) ∨
            ∃ q ∈ p :: ws, q.2.data.lookup k = some v := by
        intro D₀ hD₀ hk₀
        refine (ih hD₀ hk₀).imp_right ?_
        rintro ⟨q, hq, hl⟩
        exact ⟨q, List.mem_cons_of_mem p hq, hl⟩
      rw [List.foldr_cons] at h
      by_cases hdoc : document = p.2.document
      · subst hdoc
        rw [p.2.apply_self] at h
        cases h
        obtain ⟨D₀, hD₀, hk₀⟩ | hl := DocumentWrite.of_result hk
        · exact hold D₀ hD₀ hk₀
        · exact .inr ⟨p, List.mem_cons_self, hl⟩
      · rw [p.2.apply_of_ne hdoc] at h
        exact hold D h hk

theorem foldr_apply_of_ne {ws : List (Nat × DocumentWrite)} {c : Collection} {document : String}
    (h : ∀ p ∈ ws, document ≠ p.2.document) :
    ws.foldr (fun p c => p.2.apply c) c document = c document := by
  induction ws with
  | nil => rfl
  | cons p ws ih =>
      obtain ⟨hp, hws⟩ := List.forall_mem_cons.mp h
      rw [List.foldr_cons, p.2.apply_of_ne hp]
      exact ih hws

namespace Device

section

variable {b : Backend} {evs : List Event} {d : Device}

theorem account_of_served (h : run next (launch b) evs = some d) {i : Nat}
    {email password firstName lastName uid : String}
    (hmem : (i, .served (.createUser email password firstName lastName)
      (.createUser (.success uid))) ∈ d.history) :
    ⟨email, password, uid⟩ ∈ d.accounts := by
  revert hmem
  refine run_invariant (P := fun d => (i, .served (.createUser email password firstName lastName)
    (.createUser (.success uid))) ∈ d.history → ⟨email, password, uid⟩ ∈ d.accounts)
    (fun {d e d'} ih hs => ?_) (fun hmem => absurd hmem List.not_mem_nil) h
  cases step_of_next hs with
  | invoke _ => exact fun hmem => ih (served_of_mem_tapped hmem)
  | deliver _ _ _ => exact fun hmem => ih (served_of_mem_resumed hmem)
  | announce _ => exact ih
  | auth => exact ih
  | @serve j r a _ hperm _ =>
      intro hmem
      rcases List.mem_cons.mp hmem with heq | hmem
      · cases heq
        exact List.mem_cons_self
      · have hold := ih hmem
        show _ ∈ d.accountsAfter r a
        obtain hsame | ⟨_, _, _, _, _, _, -, -, -, hadded, -⟩ := accountsAfter_eq hperm
        · rw [hsame]
          exact hold
        · rw [hadded]
          exact List.mem_cons_of_mem _ hold

/-- What a tap writes, and where, is what was entered. -/
theorem enters_of_applied (h : run next (launch b) evs = some d) {i : Nat} {w : DocumentWrite}
    (hw : (i, w) ∈ applied d.history) :
    w.document = "new" ∧ ∃ t ∈ d.taps, ∀ k v, w.data.lookup k = some v →
      t.Enters d.accounts k v := by
  obtain ⟨c, hmem⟩ := mem_applied.mp hw
  obtain ⟨t, ht, hissues⟩ := issues_of_run h hmem rfl
  have htmem := List.mem_of_getElem? ht
  have hlife := life_of_run h ht
  cases hissues with
  | @registration form uid hinv =>
      have hdeed := mem_deedsOf.mpr hmem
      have hvalid : form.validateFields = .ok none :=
        (validateFields_of_life hinv hlife).resolve_right fun h => nomatch h.2 _ hdeed
      have henrol := enrol_of_life hinv
        (RegisterViewController.isPasswordValid_of_validateFields hvalid) hlife
      obtain ⟨uid', heq, hserved⟩ := henrol.created_of_writes hdeed rfl
      have huid : uid = uid' := by
        have hlookup := congrArg (fun w => w.data.lookup "uid") heq
        exact Option.some.inj hlookup
      subst huid
      have haccount := account_of_served h (mem_deedsOf.mp hserved)
      refine ⟨rfl, t, htmem, fun k v hl => ?_⟩
      have hdata := mem_of_lookup hl
      simp only [RegisterViewController.registrationWrite, RegisterViewController.registrationData,
        List.mem_cons, Prod.mk.injEq, List.not_mem_nil, or_false] at hdata
      rcases hdata with ⟨rfl, rfl⟩ | ⟨rfl, rfl⟩ | ⟨rfl, rfl⟩
      · exact .text (by simp [Tap.texts, hinv])
      · exact .text (by simp [Tap.texts, hinv])
      · exact .uid ⟨form, hinv, hvalid, rfl, rfl⟩ haccount
  | @profile form user tokens hinv huser =>
      refine ⟨rfl, t, htmem, fun k v hl => ?_⟩
      have hdata := mem_of_lookup hl
      rw [MyProfileViewController.submitted, profileWrite_data] at hdata
      simp only [List.mem_cons, Prod.mk.injEq, List.not_mem_nil, or_false] at hdata
      rcases hdata with ⟨rfl, rfl⟩ | ⟨rfl, rfl⟩ | ⟨rfl, rfl⟩ | ⟨rfl, rfl⟩ | ⟨rfl, rfl⟩ |
        ⟨rfl, rfl⟩ | ⟨rfl, rfl⟩
      all_goals first
        | exact .photo tokens hinv huser
        | exact .text (by simp [Tap.texts, hinv])
  | @profile2 form user hinv huser =>
      refine ⟨rfl, t, htmem, fun k v hl => .text ?_⟩
      rw [Tap.texts, hinv]
      exact mem_of_lookup hl

/-- A registration up to its document. -/
def adaRegisters : List Event :=
  [.invoke 0 (.registerButton
     { firstNameField := ⟨" Ada"⟩, lastNameField := ⟨"Lovelace"⟩
       passwordField := ⟨"passw0rd!"⟩, emailField := ⟨"ada@example.org"⟩ }),
   .serve 0 (.createUser (.success "u1")), .announce, .deliver 0, .serve 0 (.setData (.success ()))]

theorem accounts_of_run_ada :
    ∃ d opened, run next (launch {}) adaRegisters = some d ∧ d.accounts = opened ++ [] ∧
      ∀ x ∈ opened, Utilities.isPasswordValid x.password = true ∧ ∃ t ∈ d.taps, t.Opens x := by
  have hrun : run next (launch {}) adaRegisters = some _ := rfl
  obtain ⟨opened, haccounts, hopened, -⟩ := accounts_of_run hrun
  exact ⟨_, opened, hrun, haccounts, hopened⟩

/-- Only the shared document is ever written, and what stands in it was there
at the start or was entered by somebody. -/
theorem users_traced (h : run next (launch b) evs = some d) :
    (∀ document, document ≠ "new" → d.users document = b.users document) ∧
    ∀ D k v, d.users "new" = some D → D k = some v →
      (∃ D₀, b.users "new" = some D₀ ∧ D₀ k = some v) ∨
        ∃ t ∈ d.taps, t.Enters d.accounts k v := by
  constructor
  · intro document hdoc
    rw [users_of_run h]
    refine foldr_apply_of_ne fun p hp => ?_
    rw [(enters_of_applied h hp).1]
    exact hdoc
  · intro D k v hD hk
    rw [users_of_run h] at hD
    refine (mem_of_foldr_apply hD hk).imp_right ?_
    rintro ⟨p, hp, hl⟩
    obtain ⟨-, t, ht, henters⟩ := enters_of_applied h hp
    exact ⟨t, ht, henters k v hl⟩

theorem users_traced_ada :
    ∃ d D, run next (launch {}) adaRegisters = some d ∧ d.users "new" = some D ∧
      D "firstName" = some "Ada" ∧ ∃ t ∈ d.taps, t.Enters d.accounts "firstName" "Ada" := by
  have hrun : run next (launch {}) adaRegisters = some _ := rfl
  refine ⟨_, _, hrun, rfl, by decide, ?_⟩
  exact ((users_traced hrun).2 _ "firstName" "Ada" rfl (by decide)).resolve_left nofun

end

end Device

end Pompeius
