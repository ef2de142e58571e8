import Pompeius.Proofs.History
import Pompeius.Proofs.Stages

/-!
# Registration in two steps

`createUser` makes an account and its callback stores the document. Nothing
ties the two together, and nothing undoes the first when the second fails, or
when `createUser` itself fails with the account already made.

Take any number of overlapping submissions of one valid form. At most one of
them gets an account, because the email is then taken, and none when the email
was taken from the start; so there is at most one registration write in the
whole run (`Created`). `registration_allOrNothing_iff` says account and document
agree once no callback is outstanding exactly when they agreed at the start and
no account was opened without its document (`Orphaned`). Such an account stays,
every later submission of the form is told that its email is used, and the
document is never written.
-/

namespace Pompeius

open Lib Device

/-- The same four texts, up to trimming. -/
structure RegisterViewController.SameTexts (again form : RegisterViewController) : Prop where
  firstName : again.firstNameField.cleaned = form.firstNameField.cleaned
  lastName : again.lastNameField.cleaned = form.lastNameField.cleaned
  password : again.passwordField.cleaned = form.passwordField.cleaned
  email : again.emailField.cleaned = form.emailField.cleaned

theorem RegisterViewController.isPasswordValid_of_validateFields {form : RegisterViewController}
    (h : form.validateFields = .ok none) :
    Utilities.isPasswordValid form.passwordField.cleaned = true := by
  rw [validateFields_eq] at h
  cases hp : Utilities.isPasswordValid form.passwordField.cleaned with
  | true => rfl
  | false =>
      rw [hp] at h
      cases h

/-! ## A registration that has ended -/

section Enrol

variable {email password firstName lastName : String} {ds : List Deed}

/-- It was told it got no account, or it got one and its write was answered. -/
theorem Enrol.ended (h : Enrol email password firstName lastName none ds) :
    (∃ reply, reply.value = none ∧ ∀ r a, .served r a ∈ ds → a = .createUser reply) ∨
    ∃ uid reply,
      .served (.createUser email password firstName lastName) (.createUser (.success uid)) ∈ ds ∧
      .served (.setData (RegisterViewController.registrationWrite firstName lastName uid) true)
        (.setData reply) ∈ ds ∧
      ∀ r a, .served r a ∈ ds → a = .createUser (.success uid) ∨
        r = .setData (RegisterViewController.registrationWrite firstName lastName uid) true ∧
          a = .setData reply := by
  cases h with
  | createFailed reply hnobody =>
      refine .inl ⟨reply, hnobody, fun r a hmem => ?_⟩
      simp only [List.mem_cons, Deed.served.injEq, reduceCtorEq, List.not_mem_nil, or_false,
        false_or] at hmem
      exact hmem.2
  | finished uid reply told htold =>
      refine .inr ⟨uid, reply, by simp [createdDeeds], by simp, fun r a hmem => ?_⟩
      rcases List.mem_append.mp hmem with hmem | hmem
      · obtain ⟨message, he⟩ := htold _ hmem
        cases he
      · simp only [createdDeeds, List.mem_cons, Deed.served.injEq, reduceCtorEq,
          List.not_mem_nil, or_false, false_or] at hmem
        rcases hmem with hmem | hmem
        · exact .inr hmem
        · exact .inl hmem.2

end Enrol

namespace Device

/-- A new account is unlike all the others. -/
theorem unused_of_permits {b : Backend} {email password firstName lastName uid : String}
    {reply : AccountReply}
    (h : b.permits (.createUser email password firstName lastName) (.createUser reply) = true)
    (hopened : reply.opened = some uid) : ∀ x ∈ b.accounts, x.email ≠ email ∧ x.uid ≠ uid := by
  intro x hx
  change (reply.opened.all fun uid => b.accounts.all fun x =>
    x.email != email && x.uid != uid) = true at h
  rw [hopened] at h
  have hx' := List.all_eq_true.mp h x hx
  simpa only [Bool.and_eq_true, bne_iff_ne] using hx'

/-- The account a deed reports as opened. -/
def createdAccount : Nat × Deed → Option (Nat × String)
  | (i, .served (.createUser _ _ _ _) (.createUser reply)) => reply.opened.map (i, ·)
  | _ => none

/-- The accounts opened, newest first, by tap. -/
def created (hist : List (Nat × Deed)) : List (Nat × String) :=
  hist.filterMap createdAccount

theorem created_cons (hist : List (Nat × Deed)) (i : Nat)
    (email password firstName lastName : String) (reply : AccountReply) :
    created ((i, .served (.createUser email password firstName lastName) (.createUser reply)) ::
      hist) = (reply.opened.map (i, ·)).toList ++ created hist := by
  cases reply <;> rfl

/-- The form is submitted; whatever else happens, nobody taps anything else. -/
def Event.Submits (form : RegisterViewController) : Event → Prop
  | .invoke _ (.registerButton self) => self.SameTexts form
  | .invoke _ _ => False
  | _ => True

/-- No account was opened, or one and the email was free. -/
inductive Created (b : Backend) (email : String) (d : Device) : Prop
  | nobody : created d.history = [] → d.accounts = b.accounts → Created b email d
  | one (i : Nat) (uid password : String) : (∀ x ∈ b.accounts, x.email ≠ email) →
      created d.history = [(i, uid)] → d.accounts = ⟨email, password, uid⟩ :: b.accounts →
      Created b email d

section

variable {b : Backend} {evs : List Event} {d : Device} {form : RegisterViewController}

theorem submits_taps (hevs : ∀ e ∈ evs, e.Submits form) (h : run next (launch b) evs = some d)
    {i : Nat} {t : Tap} (ht : d.taps[i]? = some t) :
    ∃ self, t.invocation = .registerButton self ∧ self.SameTexts form := by
  have hmem : t.invocation ∈ invocations evs := by
    rw [← invocations_of_run h]
    exact List.mem_map_of_mem (List.mem_of_getElem? ht)
  obtain ⟨e, he, heq⟩ := List.mem_filterMap.mp hmem
  have hsub := hevs e he
  cases e with
  | invoke n inv =>
      cases heq
      cases hinv : t.invocation with
      | registerButton self =>
          rw [hinv] at hsub
          exact ⟨self, rfl, hsub⟩
      | _ => rw [hinv] at hsub; exact absurd hsub id
  | _ => cases heq

/-- Each submission is in a stage of its registration. -/
theorem submits_enrol (hvalid : form.validateFields = .ok none)
    (hevs : ∀ e ∈ evs, e.Submits form) (h : run next (launch b) evs = some d)
    {i : Nat} {t : Tap} (ht : d.taps[i]? = some t) :
    Enrol form.emailField.cleaned form.passwordField.cleaned form.firstNameField.cleaned
      form.lastNameField.cleaned (d.calls i) (d.deedsOf i) := by
  obtain ⟨self, hinv, hsame⟩ := submits_taps hevs h ht
  have hpassword : Utilities.isPasswordValid self.passwordField.cleaned = true := by
    rw [hsame.password]
    exact RegisterViewController.isPasswordValid_of_validateFields hvalid
  have henrol := enrol_of_life hinv hpassword (life_of_run h ht)
  rw [hsame.email, hsame.password, hsame.firstName, hsame.lastName] at henrol
  exact henrol

theorem created_append_deeds (i : Nat) (eff : Effects) (hist : List (Nat × Deed)) :
    created ((deeds eff).map (i, ·) ++ hist) = created hist := by
  rw [created, List.filterMap_append, filterMap_deeds (fun _ => rfl) fun _ => rfl]
  rfl

theorem created_of_run (hvalid : form.validateFields = .ok none)
    (hevs : ∀ e ∈ evs, e.Submits form) (h : run next (launch b) evs = some d) :
    Created b form.emailField.cleaned d := by
  revert hevs
  refine run_rec
    (motive := fun evs d => (∀ e ∈ evs, e.Submits form) → Created b form.emailField.cleaned d)
    (fun _ => .nobody rfl rfl) (fun {es d e d'} hrun ih hs hall => ?_) h
  have hes : ∀ x ∈ es, x.Submits form := fun x hx => hall x (List.mem_append_left [e] hx)
  have hd := ih hes
  -- a step that opens no account changes neither list
  have hkeep : created d'.history = created d.history → d'.accounts = d.accounts →
      Created b form.emailField.cleaned d' := by
    intro hcreated haccounts
    cases hd with
    | nobody hnone hsame => exact .nobody (hcreated.trans hnone) (haccounts.trans hsame)
    | one i uid password hfresh hone hcons =>
        exact .one i uid password hfresh (hcreated.trans hone) (haccounts.trans hcons)
  cases step_of_next hs with
  | invoke heff => exact hkeep (created_append_deeds ..) rfl
  | @serve i r a hcall hperm hnext =>
      obtain ⟨t, ht⟩ := (lives_of_run hrun).exists_tap hcall
      have henrol := submits_enrol hvalid hes hrun ht
      rw [hcall] at henrol
      generalize d.deedsOf i = ds at henrol
      cases henrol with
      | creating =>
          obtain ⟨reply, rfl⟩ := fits_createUser (fits_of_permits hperm)
          have hcreated := created_cons d.history i form.emailField.cleaned
            form.passwordField.cleaned form.firstNameField.cleaned form.lastNameField.cleaned reply
          cases hopened : reply.opened with
          | none =>
              rw [hopened] at hcreated
              refine hkeep hcreated ?_
              show (reply.opened.map _).toList ++ d.accounts = _
              rw [hopened]
              rfl
          | some uid =>
              rw [hopened] at hcreated
              have hunused := unused_of_permits hperm hopened
              cases hd with
              | one j uid' password _ _ hcons =>
                  rw [hcons] at hunused
                  exact absurd rfl (hunused _ List.mem_cons_self).1
              | nobody hnone hsame =>
                  refine .one i uid form.passwordField.cleaned (fun x hx => ?_) ?_ ?_
                  · exact (hunused x (hsame ▸ hx)).1
                  · rw [hnone] at hcreated
                    exact hcreated
                  · show (reply.opened.map _).toList ++ d.accounts = _
                    rw [hopened, hsame]
                    rfl
      | storing uid => exact hkeep rfl rfl
  | deliver hcall _ heff => exact hkeep (created_append_deeds ..) rfl
  | announce _ => exact hkeep rfl rfl
  | auth => exact hkeep rfl rfl

theorem mem_created {hist : List (Nat × Deed)} {i : Nat} {uid : String} :
    (i, uid) ∈ created hist ↔ ∃ email password firstName lastName reply,
      (i, .served (.createUser email password firstName lastName) (.createUser reply)) ∈ hist ∧
        reply.opened = some uid := by
  rw [created, List.mem_filterMap]
  constructor
  · rintro ⟨⟨j, x⟩, hmem, heq⟩
    unfold createdAccount at heq
    split at heq
    · rename_i reply heq'
      obtain ⟨uid', hopened, hpair⟩ := Option.map_eq_some_iff.mp heq
      cases heq'
      cases hpair
      exact ⟨_, _, _, _, _, hmem, hopened⟩
    · cases heq
  · rintro ⟨email, password, firstName, lastName, reply, hmem, hopened⟩
    refine ⟨_, hmem, ?_⟩
    show reply.opened.map (i, ·) = some (i, uid)
    rw [hopened]
    rfl

end

/-! ## When no callback is outstanding -/

/-- The collection holds the document of the account with that uid. -/
def Stored (form : RegisterViewController) (users : Collection) (uid : String) : Prop :=
  ∃ document D, users document = some D ∧ D "firstName" = some form.firstNameField.cleaned ∧
    D "lastName" = some form.lastNameField.cleaned ∧ D "uid" = some uid

/-- There is an account for the email exactly when there is one whose document
is stored. -/
def AllOrNothing (form : RegisterViewController) (b : Backend) : Prop :=
  (∃ x ∈ b.accounts, x.email = form.emailField.cleaned) ↔
    ∃ x ∈ b.accounts, x.email = form.emailField.cleaned ∧ Stored form b.users x.uid

/-- The account of that uid was opened, and its document was not written: `createUser`
reported an error all the same, or the `setData` after it was refused. -/
def Orphaned (evs : List Event) (uid : String) : Prop :=
  (∃ i e, .serve i (.createUser (.incomplete uid e)) ∈ evs) ∨
    ∃ i e, .serve i (.createUser (.success uid)) ∈ evs ∧ .serve i (.setData (.failure e)) ∈ evs

section

variable {b : Backend} {evs : List Event} {d : Device} {form : RegisterViewController}

theorem created_of_serve (h : run next (launch b) evs = some d) {i : Nat} {uid : String}
    {reply : AccountReply} (he : .serve i (.createUser reply) ∈ evs)
    (hopened : reply.opened = some uid) : (i, uid) ∈ created d.history := by
  obtain ⟨r, hmem⟩ := (served_iff_of_run h).mpr he
  have hfit := fits_of_run h hmem
  cases r with
  | createUser email password firstName lastName =>
      exact mem_created.mpr ⟨_, _, _, _, _, hmem, hopened⟩
  | _ => cases hfit

theorem Orphaned.created (h : run next (launch b) evs = some d) {uid : String}
    (ho : Orphaned evs uid) : ∃ i, (i, uid) ∈ created d.history := by
  obtain ⟨i, e, he⟩ | ⟨i, e, he, -⟩ := ho
  · exact ⟨i, created_of_serve h he rfl⟩
  · exact ⟨i, created_of_serve h he rfl⟩

theorem submits_ended (hvalid : form.validateFields = .ok none)
    (hevs : ∀ e ∈ evs, e.Submits form) (h : run next (launch b) evs = some d)
    (hq : d.Quiescent) {j : Nat} {x : Deed} (hx : (j, x) ∈ d.history) :
    (∃ reply, reply.value = none ∧ ∀ r a, (j, .served r a) ∈ d.history → a = .createUser reply) ∨
    ∃ uid reply, (j, uid) ∈ created d.history ∧
      (j, .served (.setData (RegisterViewController.registrationWrite
        form.firstNameField.cleaned form.lastNameField.cleaned uid) true) (.setData reply)) ∈
        d.history ∧
      ∀ r a, (j, .served r a) ∈ d.history → a = .createUser (.success uid) ∨
        r = .setData (RegisterViewController.registrationWrite
          form.firstNameField.cleaned form.lastNameField.cleaned uid) true ∧
          a = .setData reply := by
  obtain ⟨t, ht⟩ := exists_tap_of_run h hx
  have henrol := submits_enrol hvalid hevs h ht
  rw [hq j] at henrol
  rcases henrol.ended with ⟨reply, hnobody, hall⟩ | ⟨uid, reply, hcreated, hstored, hall⟩
  · exact .inl ⟨reply, hnobody, fun r a hmem => hall r a (mem_deedsOf.mpr hmem)⟩
  · refine .inr ⟨uid, reply, mem_created.mpr ⟨_, _, _, _, _, mem_deedsOf.mp hcreated, rfl⟩,
      mem_deedsOf.mp hstored, fun r a hmem => hall r a (mem_deedsOf.mpr hmem)⟩

/-- A write is made by a tap that got an account. -/
theorem created_of_write (hvalid : form.validateFields = .ok none)
    (hevs : ∀ e ∈ evs, e.Submits form) (h : run next (launch b) evs = some d)
    (hq : d.Quiescent) {j : Nat} {w : DocumentWrite} {c : Bool} {a : Answer}
    (hmem : (j, .served (.setData w c) a) ∈ d.history) :
    ∃ uid reply, (j, uid) ∈ created d.history ∧ a = .setData reply ∧
      w = RegisterViewController.registrationWrite form.firstNameField.cleaned
        form.lastNameField.cleaned uid := by
  have hwrite : ∀ reply, a ≠ .createUser reply := by
    rintro reply rfl
    cases fits_of_run h hmem
  rcases submits_ended hvalid hevs h hq hmem with
    ⟨reply, -, hall⟩ | ⟨uid, reply, hcreated, -, hall⟩
  · exact absurd (hall _ _ hmem) (hwrite reply)
  · rcases hall _ _ hmem with ha | ⟨hr, ha⟩
    · exact absurd ha (hwrite _)
    · cases hr
      exact ⟨uid, reply, hcreated, ha, rfl⟩

/-- Where no write succeeded the collection is as it was. -/
theorem users_of_refused (h : run next (launch b) evs = some d)
    (hnone : ∀ j w c, (j, .served (.setData w c) (.setData (.success ()))) ∉ d.history) :
    d.users = b.users := by
  have happlied : applied d.history = [] := by
    refine List.eq_nil_iff_forall_not_mem.mpr fun p hp => ?_
    obtain ⟨c, hmem⟩ := mem_applied.mp (show (p.1, p.2) ∈ applied d.history from hp)
    exact hnone _ _ _ hmem
  rw [users_of_run h, happlied]
  rfl

/-- A registration write that is acknowledged, and is the only write there is,
is the stored document: it replaces whatever was there. -/
theorem stored_of_success (h : run next (launch b) evs = some d) {i : Nat} {uid : String}
    (hserved : (i, .served (.setData (RegisterViewController.registrationWrite
      form.firstNameField.cleaned form.lastNameField.cleaned uid) true)
        (.setData (.success ()))) ∈ d.history)
    (honly : ∀ j w c a, (j, .served (.setData w c) a) ∈ d.history →
      w = RegisterViewController.registrationWrite form.firstNameField.cleaned
        form.lastNameField.cleaned uid) : Stored form d.users uid := by
  have hwritten : (i, RegisterViewController.registrationWrite form.firstNameField.cleaned
      form.lastNameField.cleaned uid) ∈ applied d.history := mem_applied.mpr ⟨_, hserved⟩
  rw [users_of_run h]
  cases happlied : applied d.history with
  | nil => rw [happlied] at hwritten; cases hwritten
  | cons p rest =>
      obtain ⟨j, w⟩ := p
      obtain ⟨c, hmem⟩ := mem_applied.mp
        (happlied ▸ List.mem_cons_self : (j, w) ∈ applied d.history)
      cases honly _ _ _ _ hmem
      exact ⟨"new", _, DocumentWrite.apply_self .., rfl, rfl, rfl⟩

/-- An account whose two answers were successes is no orphan, and there is no other. -/
theorem not_orphaned (h : run next (launch b) evs = some d) {i : Nat} {uid : String}
    (hone : created d.history = [(i, uid)])
    (hsucceeded : ∀ r a, (i, .served r a) ∈ d.history →
      a = .createUser (.success uid) ∨ a = .setData (.success ())) (uid' : String) :
    ¬ Orphaned evs uid' := by
  have hanswers : ∀ {j a reply}, .serve j (.createUser reply) ∈ evs → reply.opened = some uid' →
      .serve j a ∈ evs → a = .createUser (.success uid) ∨ a = .setData (.success ()) := by
    intro j a reply hcreate hopened ha
    have hj := created_of_serve h hcreate hopened
    rw [hone, List.mem_singleton, Prod.mk.injEq] at hj
    obtain ⟨r, hr⟩ := (served_iff_of_run h).mpr ha
    exact hsucceeded r a (hj.1 ▸ hr)
  rintro (⟨j, e, he⟩ | ⟨j, e, hcreate, he⟩)
  · obtain ha | ha := hanswers he rfl he <;> cases ha
  · obtain ha | ha := hanswers hcreate rfl he <;> cases ha

/-- The one account that was opened has its document, or it is orphaned and nothing
was written. -/
theorem stored_or_orphaned (hvalid : form.validateFields = .ok none)
    (hevs : ∀ e ∈ evs, e.Submits form) (h : run next (launch b) evs = some d)
    (hq : d.Quiescent) {i : Nat} {uid : String} (hone : created d.history = [(i, uid)]) :
    Stored form d.users uid ∧ (∀ uid', ¬ Orphaned evs uid') ∨
      d.users = b.users ∧ Orphaned evs uid := by
  have hmine : ∀ {j uid'}, (j, uid') ∈ created d.history → j = i ∧ uid' = uid := by
    intro j uid' hmem
    rw [hone, List.mem_singleton, Prod.mk.injEq] at hmem
    exact hmem
  have hwrites : ∀ {j w c a}, (j, .served (.setData w c) a) ∈ d.history →
      j = i ∧ w = RegisterViewController.registrationWrite form.firstNameField.cleaned
        form.lastNameField.cleaned uid := by
    intro j w c a hwrite
    obtain ⟨uid', _, hj, -, hw⟩ := created_of_write hvalid hevs h hq hwrite
    obtain ⟨hi, rfl⟩ := hmine hj
    exact ⟨hi, hw⟩
  obtain ⟨_, _, _, _, reply, hmem, hopened⟩ :=
    mem_created.mp (hone ▸ List.mem_cons_self : (i, uid) ∈ created d.history)
  have hevent : .serve i (.createUser reply) ∈ evs := (served_iff_of_run h).mp ⟨_, hmem⟩
  rcases submits_ended hvalid hevs h hq hmem with
    ⟨reply', hnobody, hall⟩ | ⟨uid', write, hcreated, hstored, hall⟩
  · -- `createUser` handed nobody over, so it opened the account and failed
    cases hall _ _ hmem
    refine .inr ⟨users_of_refused h fun j w c hwrite => ?_, ?_⟩
    · obtain ⟨rfl, -⟩ := hwrites hwrite
      cases hall _ _ hwrite
    · cases reply with
      | failure e => cases hopened
      | incomplete uid' e => cases hopened; exact .inl ⟨i, e, hevent⟩
      | success uid' => cases hnobody
  · obtain ⟨-, rfl⟩ := hmine hcreated
    cases write with
    | success _ =>
        exact .inl ⟨stored_of_success h hstored fun j w c a hwrite => (hwrites hwrite).2,
          not_orphaned h hone fun r a hr => (hall r a hr).imp_right And.right⟩
    | failure e =>
        have hcreate : .serve i (.createUser (.success uid')) ∈ evs := by
          rcases hall _ _ hmem with ha | ⟨hr, -⟩
          · exact ha ▸ hevent
          · cases hr
        refine .inr ⟨users_of_refused h fun j w c hwrite => ?_,
          .inr ⟨i, e, hcreate, (served_iff_of_run h).mp ⟨_, hstored⟩⟩⟩
        obtain ⟨rfl, -⟩ := hwrites hwrite
        obtain ha | ⟨-, ha⟩ := hall _ _ hwrite <;> cases ha

/-- However often the form is submitted, account and document agree once no
callback is outstanding exactly when they agreed at the start and no account was
opened whose document was neither written nor there already. -/
theorem registration_allOrNothing_iff (hvalid : form.validateFields = .ok none)
    (hevs : ∀ e ∈ evs, e.Submits form) (h : run next (launch b) evs = some d)
    (hq : d.Quiescent) :
    AllOrNothing form d.toBackend ↔
      AllOrNothing form b ∧ ∀ uid, Orphaned evs uid → Stored form b.users uid := by
  cases created_of_run hvalid hevs h with
  | nobody hnone hsame =>
      have husers : d.users = b.users := by
        refine users_of_refused h fun j w c hwrite => ?_
        obtain ⟨_, _, hj, -⟩ := created_of_write hvalid hevs h hq hwrite
        rw [hnone] at hj
        cases hj
      have hno : ∀ uid, ¬ Orphaned evs uid := by
        intro uid ho
        obtain ⟨i, hi⟩ := ho.created h
        rw [hnone] at hi
        cases hi
      rw [AllOrNothing, hsame, husers]
      exact ⟨fun hall => ⟨hall, fun uid ho => absurd ho (hno uid)⟩, And.left⟩
  | one i uid password hfresh hone hcons =>
      have hagreed : AllOrNothing form b := by
        refine iff_of_false ?_ ?_
        · rintro ⟨x, hx, hemail⟩
          exact hfresh x hx hemail
        · rintro ⟨x, hx, hemail, -⟩
          exact hfresh x hx hemail
      have hnow : AllOrNothing form d.toBackend ↔ Stored form d.users uid := by
        rw [AllOrNothing, hcons]
        constructor
        · intro hall
          obtain ⟨x, hx, hemail, hstored⟩ := hall.mp ⟨_, List.mem_cons_self, rfl⟩
          rcases List.mem_cons.mp hx with rfl | hx
          · exact hstored
          · exact absurd hemail (hfresh x hx)
        · intro hstored
          exact iff_of_true ⟨_, List.mem_cons_self, rfl⟩ ⟨_, List.mem_cons_self, rfl, hstored⟩
      rw [hnow, and_iff_right hagreed]
      rcases stored_or_orphaned hvalid hevs h hq hone with ⟨hstored, hno⟩ | ⟨husers, horphaned⟩
      · exact iff_of_true hstored fun uid' ho => absurd ho (hno uid')
      · rw [husers]
        refine ⟨fun hstored uid' ho => ?_, fun hall => hall uid horphaned⟩
        obtain ⟨j, hj⟩ := ho.created h
        rw [hone, List.mem_singleton, Prod.mk.injEq] at hj
        rw [hj.2]
        exact hstored

end

/-! A form whose write is answered as given, and which is then submitted
again. -/

def ada : RegisterViewController :=
  { firstNameField := ⟨"Ada"⟩
    lastNameField := ⟨"Lovelace"⟩
    passwordField := ⟨"passw0rd!"⟩
    emailField := ⟨"ada@example.org"⟩ }

def submittedTwice (reply : Reply Unit) : List Event :=
  [.invoke 0 (.registerButton ada), .serve 0 (.createUser (.success "u1")), .announce, .deliver 0,
   .serve 0 (.setData reply), .deliver 0,
   .invoke 0 (.registerButton ada), .serve 1 (.createUser (.failure ⟨"email in use"⟩)),
   .deliver 1]

theorem submits_submittedTwice (reply : Reply Unit) :
    ∀ e ∈ submittedTwice reply, e.Submits ada := by
  have hsame : ada.SameTexts ada := ⟨rfl, rfl, rfl, rfl⟩
  simp [submittedTwice, Event.Submits, hsame]

theorem registration_allOrNothing_submittedTwice :
    ∃ d, run next (launch {}) (submittedTwice (.success ())) = some d ∧
      AllOrNothing ada d.toBackend := by
  have hrun : run next (launch {}) (submittedTwice (.success ())) = some _ := rfl
  have hno : ∀ uid, ¬ Orphaned (submittedTwice (.success ())) uid := by
    simp [Orphaned, submittedTwice]
  refine ⟨_, hrun, (registration_allOrNothing_iff (by decide) (submits_submittedTwice _)
    hrun ?_).mpr ⟨by simp [AllOrNothing], fun uid ho => absurd ho (hno uid)⟩⟩
  intro i
  match i with
  | 0 => rfl
  | 1 => rfl
  | n + 2 => rfl

/-- The account stays without a document, and the form is refused for good. -/
theorem refused_registration_broken :
    ∃ d, run next (launch {}) (submittedTwice (.failure ⟨"unavailable"⟩)) = some d ∧
      ada.validateFields = .ok none ∧
      (∀ e ∈ submittedTwice (.failure ⟨"unavailable"⟩), e.Submits ada) ∧ d.Quiescent ∧
      ¬ AllOrNothing ada d.toBackend := by
  have hrun : run next (launch {}) (submittedTwice (.failure ⟨"unavailable"⟩)) = some _ := rfl
  refine ⟨_, hrun, by decide, submits_submittedTwice _, ?_, fun hall => ?_⟩
  · intro i
    match i with
    | 0 => rfl
    | 1 => rfl
    | n + 2 => rfl
  · obtain ⟨x, -, -, document, D, hnone, -⟩ := hall.mp ⟨_, List.mem_cons_self, rfl⟩
    cases hnone

end Device

end Pompeius
