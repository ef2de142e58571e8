import Pompeius.Proofs.Documents
import Pompeius.Proofs.History
import Pompeius.Proofs.Stages

/-!
# Whose document is it

Every handler writes to the document `users/new`, whoever is signed in. A user
is isolated while the collection holds a document with the user's uid that is
the replay of the user's own writes; `Isolated` asks this of every user whose
registration was written. With one user at a time the shared document is a
faithful copy. With two it is not: they cannot both own it (`Isolated.unique`).

`isolated_iff` says exactly which runs keep the promise. A write is
unobtrusive when every other registered user can live with it, that is, when
it merges values that are there already; the promise holds in every state of a
run just when each Firestore write was unobtrusive in the state it met. The
argument compares the shared collection with the private replay of one user,
one write at a time: an own write moves both alike, a foreign one moves only
the shared one.
-/

namespace Pompeius

open Lib Device

/-- The user a Firestore write belongs to: registration writes for the account
it has just created, the pages for the user signed in at the tap. -/
def Tap.author (t : Tap) (w : DocumentWrite) : Option String :=
  match t.invocation with
  | .registerButton _ => w.data.lookup "uid"
  | _ => t.user.map (·.uid)

/-- What a handler can write, with its author. -/
inductive Signed : String × DocumentWrite → Prop
  | registration (firstName lastName uid : String) :
      Signed (uid, RegisterViewController.registrationWrite firstName lastName uid)
  | page {uid : String} {w : DocumentWrite} : w.Merges → "uid" ∉ keys w.data → Signed (uid, w)

theorem Tap.Issues.signed {t : Tap} {w : DocumentWrite} {c : Bool}
    (h : t.Issues (.setData w c)) : ∃ uid, t.author w = some uid ∧ Signed (uid, w) := by
  cases h with
  | registration uid hinv =>
      refine ⟨uid, ?_, .registration _ _ uid⟩
      rw [Tap.author, hinv]
      rfl
  | @profile self user tokens hinv huser =>
      have hpage : Page1Write (MyProfileViewController.profileWrite self.submitted
        ((MyProfileViewController.storageProfileRef user.uid).downloadURL tokens)) := .intro ..
      refine ⟨user.uid, ?_, .page hpage.merges ?_⟩
      · rw [Tap.author, hinv, huser]
        rfl
      · rw [hpage.keys_eq]
        decide
  | @profile2 self user hinv huser =>
      have hpage : Page2Write self.submitted := .intro ..
      refine ⟨user.uid, ?_, .page hpage.merges ?_⟩
      · rw [Tap.author, hinv, huser]
        rfl
      · rw [hpage.keys_eq]
        decide

/-! ## A list of signed writes, newest first -/

/-- What a list of writes makes of a collection. -/
def replayWrites (c : Collection) (ws : List (String × DocumentWrite)) : Collection :=
  ws.foldr (fun p c => p.2.apply c) c

/-- The collection a user alone would have. -/
def ownCollection (uid : String) (ws : List (String × DocumentWrite)) : Collection :=
  replayWrites (fun _ => none) (ws.filter fun p => p.1 = uid)

def Registers (ws : List (String × DocumentWrite)) (uid : String) : Prop :=
  ∃ firstName lastName,
    (uid, RegisterViewController.registrationWrite firstName lastName uid) ∈ ws

/-- The collection has a document of `uid`'s that only `uid` has written. -/
def Owns (users : Collection) (ws : List (String × DocumentWrite)) (uid : String) : Prop :=
  ∃ document D, users document = some D ∧ D "uid" = some uid ∧
    ownCollection uid ws document = some D

theorem ownCollection_cons_self {ws : List (String × DocumentWrite)} {uid : String}
    {w : DocumentWrite} : ownCollection uid ((uid, w) :: ws) = w.apply (ownCollection uid ws) := by
  rw [ownCollection, List.filter_cons_of_pos (by simp)]
  rfl

theorem ownCollection_cons_of_ne {ws : List (String × DocumentWrite)} {uid author : String}
    {w : DocumentWrite} (h : author ≠ uid) :
    ownCollection uid ((author, w) :: ws) = ownCollection uid ws := by
  rw [ownCollection, List.filter_cons_of_neg (by simpa using h)]
  rfl

theorem Signed.document_eq {p : String × DocumentWrite} (h : Signed p) :
    p.2.document = "new" := by
  cases h with
  | registration => rfl
  | page hmerges _ => exact hmerges.1

/-- Nobody writes anywhere but to the shared document. -/
theorem ownCollection_other {ws : List (String × DocumentWrite)} (hws : ∀ p ∈ ws, Signed p)
    {uid document : String} (hdoc : document ≠ "new") :
    ownCollection uid ws document = none := by
  induction ws with
  | nil => rfl
  | cons p ws ih =>
      obtain ⟨author, w⟩ := p
      have hne : document ≠ w.document := by
        rw [(hws _ List.mem_cons_self).document_eq]
        exact hdoc
      have htail := ih fun q hq => hws q (List.mem_cons_of_mem _ hq)
      by_cases hauthor : author = uid
      · subst hauthor
        rw [ownCollection_cons_self, DocumentWrite.apply_of_ne hne]
        exact htail
      · rw [ownCollection_cons_of_ne hauthor]
        exact htail

theorem Owns.shared {users : Collection} {ws : List (String × DocumentWrite)} {uid : String}
    (hws : ∀ p ∈ ws, Signed p) (h : Owns users ws uid) :
    ∃ D, users "new" = some D ∧ D "uid" = some uid ∧ ownCollection uid ws "new" = some D := by
  obtain ⟨document, D, husers, huid, hown⟩ := h
  by_cases hdoc : document = "new"
  · subst hdoc
    exact ⟨D, husers, huid, hown⟩
  · rw [ownCollection_other hws hdoc] at hown
    cases hown

/-- A write every other registered user can live with. -/
def Harmless (users : Collection) (ws : List (String × DocumentWrite))
    (p : String × DocumentWrite) : Prop :=
  ∀ uid, Registers ws uid → uid ≠ p.1 → p.2.merge = true ∧
    ∃ D, users "new" = some D ∧ ∀ k v, p.2.data.lookup k = some v → D k = some v

theorem Signed.apply_new {users : Collection} {p : String × DocumentWrite} (h : Signed p) :
    p.2.apply users "new" = some (p.2.result (users "new")) := by
  rw [← h.document_eq]
  exact p.2.apply_self users

theorem Registers.of_cons {ws : List (String × DocumentWrite)} {p : String × DocumentWrite}
    {uid : String} (h : Registers (p :: ws) uid)
    (hp : p.1 ≠ uid ∨ p.2.merge = true) : Registers ws uid := by
  obtain ⟨f, l, hmem⟩ := h
  refine ⟨f, l, ?_⟩
  rcases List.mem_cons.mp hmem with rfl | hmem
  · rcases hp with hne | hmerge
    · exact absurd rfl hne
    · cases hmerge
  · exact hmem

/-- A user's own write moves the shared document and the private replay
alike. -/
theorem owns_cons_self {users : Collection} {ws : List (String × DocumentWrite)} {uid : String}
    {w : DocumentWrite} (hws : ∀ q ∈ ws, Signed q) (hp : Signed (uid, w))
    (hiso : Registers ws uid → Owns users ws uid) (hreg : Registers ((uid, w) :: ws) uid) :
    Owns (w.apply users) ((uid, w) :: ws) uid := by
  have hown : w.apply (ownCollection uid ws) "new" =
      some (w.result (ownCollection uid ws "new")) := hp.apply_new
  refine ⟨"new", _, hp.apply_new, ?_, ?_⟩
  · cases hp with
    | registration f l _ => rfl
    | page hmerges hkeys =>
        obtain ⟨D, husers, huid, -⟩ := (hiso (hreg.of_cons (.inr hmerges.2))).shared hws
        rw [DocumentWrite.result, if_pos hmerges.2, husers]
        rw [← huid]
        exact overlay_of_not_mem hkeys
  · rw [ownCollection_cons_self, hown]
    cases hp with
    | registration f l _ => rfl
    | page hmerges _ =>
        obtain ⟨D, husers, -, hD⟩ := (hiso (hreg.of_cons (.inr hmerges.2))).shared hws
        rw [hD, husers]

/-- Somebody else's write moves the shared document only. -/
theorem owns_cons_of_ne {users : Collection} {ws : List (String × DocumentWrite)} {uid : String}
    {p : String × DocumentWrite} (hws : ∀ q ∈ ws, Signed q) (hp : Signed p) (hne : p.1 ≠ uid)
    (h : Owns users ws uid) :
    Owns (p.2.apply users) (p :: ws) uid ↔ p.2.merge = true ∧
      ∃ D, users "new" = some D ∧ ∀ k v, p.2.data.lookup k = some v → D k = some v := by
  obtain ⟨author, w⟩ := p
  obtain ⟨D, husers, huid, hown⟩ := h.shared hws
  have hown' : ownCollection uid ((author, w) :: ws) "new" = some D := by
    rw [ownCollection_cons_of_ne hne, hown]
  have hall : ∀ q ∈ (author, w) :: ws, Signed q := List.forall_mem_cons.mpr ⟨hp, hws⟩
  constructor
  · intro hafter
    obtain ⟨D', husers', huid', hD'⟩ := hafter.shared hall
    rw [hown'] at hD'
    cases hD'
    rw [hp.apply_new, husers] at husers'
    have hsame : w.result (some D) = D := Option.some.inj husers'
    cases hp with
    | registration f l _ =>
        rw [← hsame] at huid'
        exact absurd (Option.some.inj huid') hne
    | page hmerges _ =>
        refine ⟨hmerges.2, D, husers, ?_⟩
        rw [DocumentWrite.result, if_pos hmerges.2] at hsame
        exact overlay_eq_self_iff.mp hsame
  · rintro ⟨hmerge, D', husers', hvalues⟩
    rw [husers] at husers'
    cases husers'
    refine ⟨"new", D, ?_, huid, hown'⟩
    rw [hp.apply_new, husers, DocumentWrite.result, if_pos hmerge]
    exact congrArg some (overlay_eq_self_iff.mpr hvalues)

/-- One write: the promise survives exactly when the write is harmless. -/
theorem owns_cons_iff {users : Collection} {ws : List (String × DocumentWrite)}
    {p : String × DocumentWrite} (hws : ∀ q ∈ ws, Signed q) (hp : Signed p)
    (hiso : ∀ uid, Registers ws uid → Owns users ws uid) :
    (∀ uid, Registers (p :: ws) uid → Owns (p.2.apply users) (p :: ws) uid) ↔
      Harmless users ws p := by
  constructor
  · intro h uid hreg hne
    have hreg' : Registers (p :: ws) uid := by
      obtain ⟨f, l, hmem⟩ := hreg
      exact ⟨f, l, List.mem_cons_of_mem p hmem⟩
    exact (owns_cons_of_ne hws hp (Ne.symm hne) (hiso uid hreg)).mp (h uid hreg')
  · intro h uid hreg
    by_cases hne : p.1 = uid
    · subst hne
      exact owns_cons_self hws hp (hiso p.1) hreg
    · have hold := hreg.of_cons (.inl hne)
      exact (owns_cons_of_ne hws hp hne (hiso uid hold)).mpr (h uid hold (Ne.symm hne))

/-! ## On a device -/

namespace Device

/-- The writes that took effect with their authors, newest first. -/
def signed (d : Device) : List (String × DocumentWrite) :=
  (applied d.history).filterMap fun p =>
    (d.taps[p.1]?).bind fun t => (t.author p.2).map (·, p.2)

/-- Every registered user has a document nobody else has written. -/
def Isolated (d : Device) : Prop :=
  ∀ uid, Registers d.signed uid → Owns d.users d.signed uid

/-- Every other registered user can live with the write tap `i` has in
flight. -/
def Unobtrusive (d : Device) (i : Nat) : Prop :=
  ∀ t w c uid, d.taps[i]? = some t → d.calls i = some ⟨.setData w c, none⟩ →
    t.author w = some uid → Harmless d.users d.signed (uid, w)

theorem signed_of_run {b : Backend} {evs : List Event} {d : Device}
    (h : run next (launch b) evs = some d) : ∀ p ∈ d.signed, Signed p := by
  rintro ⟨uid, w⟩ hp
  obtain ⟨⟨i, w'⟩, happlied, heq⟩ := List.mem_filterMap.mp hp
  obtain ⟨c, hmem⟩ := mem_applied.mp happlied
  obtain ⟨t, ht, hissues⟩ := issues_of_run h hmem rfl
  obtain ⟨uid', hauthor, hsigned⟩ := hissues.signed
  rw [ht, Option.bind_some, hauthor] at heq
  cases heq
  exact hsigned

/-- A new tap changes no earlier one, so no write changes its author. -/
theorem signed_tapped {b : Backend} {evs : List Event} {d : Device}
    (h : run next (launch b) evs = some d) (self : Nat) (inv : Invocation) (eff : Effects) :
    (d.tapped self inv eff).signed = d.signed := by
  show (applied ((deeds eff).map (d.taps.length, ·) ++ d.history)).filterMap _ = _
  rw [applied_append_deeds]
  refine List.filterMap_congr fun p hp => ?_
  obtain ⟨c, hmem⟩ := mem_applied.mp hp
  obtain ⟨t, ht⟩ := exists_tap_of_run h hmem
  have hlt := (List.getElem?_eq_some_iff.mp ht).1
  show ((d.taps ++ [_])[p.1]?).bind _ = _
  rw [List.getElem?_append_left hlt]

/-- A step adds to the signed writes only by serving a write. -/
theorem signed_step {b : Backend} {evs : List Event} {d d' : Device} {e : Event}
    (h : run next (launch b) evs = some d) (hs : Step d e d') :
    (d'.signed = d.signed ∧ d'.users = d.users ∧
      ∀ i, e ≠ .serve i (.setData (.success ()))) ∨
    ∃ i t w c uid, e = .serve i (.setData (.success ())) ∧ d.taps[i]? = some t ∧
      d.calls i = some ⟨.setData w c, none⟩ ∧ t.author w = some uid ∧ Signed (uid, w) ∧
      d'.signed = (uid, w) :: d.signed ∧ d'.users = w.apply d.users := by
  cases hs with
  | invoke heff => exact .inl ⟨signed_tapped h .., rfl, fun i => by simp⟩
  | @serve i r a hcall hperm hhead =>
      have hfit := fits_of_permits hperm
      cases r with
      | setData w c =>
          obtain ⟨reply, rfl⟩ := fits_setData hfit
          cases reply with
          | failure e => exact .inl ⟨rfl, rfl, fun j => by simp⟩
          | success _ =>
              obtain ⟨t, ht⟩ := (lives_of_run h).exists_tap hcall
              have hissues := (issues_of_life (life_of_run h ht)).1 _ hcall
              obtain ⟨uid, hauthor, hsigned⟩ := hissues.signed
              refine .inr ⟨i, t, w, c, uid, rfl, ht, hcall, hauthor, hsigned, ?_, rfl⟩
              show ((i, w) :: applied d.history).filterMap _ = _
              refine List.filterMap_cons_some ?_
              show (d.taps[i]?).bind _ = _
              rw [ht, Option.bind_some, hauthor]
              rfl
      | _ =>
          refine .inl ⟨rfl, rfl, fun j he => ?_⟩
          cases he
          cases hfit
  | @deliver i r a eff hcall _ heff =>
      refine .inl ⟨?_, rfl, fun i => by simp⟩
      show (applied ((deeds eff).map (i, ·) ++ _)).filterMap _ = _
      rw [applied_append_deeds]
      rfl
  | announce _ => exact .inl ⟨rfl, rfl, fun i => by simp⟩
  | auth => exact .inl ⟨rfl, rfl, fun i => by simp⟩

theorem isolated_step {b : Backend} {evs : List Event} {d d' : Device} {e : Event}
    (h : run next (launch b) evs = some d) (hiso : Isolated d) (hs : Step d e d') :
    Isolated d' ↔ ∀ i, e = .serve i (.setData (.success ())) → Unobtrusive d i := by
  rcases signed_step h hs with ⟨hsigned, husers, hno⟩ |
    ⟨i, t, w, c, uid, rfl, ht, hcall, hauthor, hp, hsigned, husers⟩
  · rw [Isolated, hsigned, husers]
    exact iff_of_true hiso fun i hi => absurd hi (hno i)
  · rw [Isolated, hsigned, husers, owns_cons_iff (p := (uid, w)) (signed_of_run h) hp hiso]
    constructor
    · rintro hharmless j hj
      cases hj
      intro t' w' c' uid' ht' hcall' hauthor'
      rw [hcall] at hcall'
      cases hcall'
      rw [ht] at ht'
      cases ht'
      rw [hauthor] at hauthor'
      cases hauthor'
      exact hharmless
    · intro hall
      exact hall i rfl t w c uid ht hcall hauthor

/-- A run keeps every registered user's document exactly when each Firestore
write it applies is unobtrusive where it is applied. -/
theorem isolated_iff {b : Backend} {evs : List Event} {d : Device}
    (h : run next (launch b) evs = some d) :
    Along next (launch b) evs Isolated ↔
      ∀ pre i post d', evs = pre ++ .serve i (.setData (.success ())) :: post →
        run next (launch b) pre = some d' → Unobtrusive d' i := by
  have hlaunch : Isolated (launch b) := by
    rintro uid ⟨f, l, hmem⟩
    cases hmem
  rw [along_iff (Q := fun d e => ∀ i, e = .serve i (.setData (.success ())) → Unobtrusive d i)
    h hlaunch fun hrun hiso hs => isolated_step hrun hiso (step_of_next hs)]
  constructor
  · intro hall pre i post d' hevs hpre
    exact hall pre _ post d' hevs hpre i rfl
  · intro hall pre e post d' hevs hpre i he
    subst he
    exact hall pre i post d' hevs hpre

/-- Two registered users cannot both have their document. -/
theorem Isolated.unique {b : Backend} {evs : List Event} {d : Device}
    (h : run next (launch b) evs = some d) (hiso : Isolated d) {uid uid' : String}
    (hreg : Registers d.signed uid) (hreg' : Registers d.signed uid') : uid = uid' := by
  obtain ⟨D, husers, huid, -⟩ := (hiso uid hreg).shared (signed_of_run h)
  obtain ⟨D', husers', huid', -⟩ := (hiso uid' hreg').shared (signed_of_run h)
  rw [husers] at husers'
  cases husers'
  exact Option.some.inj (huid.symm.trans huid')

/-! Two people who register on one backend, one after the other. -/

def registerForm (firstName lastName email : String) : RegisterViewController :=
  { firstNameField := ⟨firstName⟩
    lastNameField := ⟨lastName⟩
    passwordField := ⟨"passw0rd!"⟩
    emailField := ⟨email⟩ }

/-- A registration that goes well, from the tap to its last callback. -/
def registers (i : Nat) (form : RegisterViewController) (uid : String) : List Event :=
  [.invoke i (.registerButton form), .serve i (.createUser (.success uid)), .announce,
   .deliver i, .serve i (.setData (.success ())), .deliver i]

def twoRegistrations : List Event :=
  registers 0 (registerForm "Ada" "Lovelace" "ada@example.org") "u1" ++
    registers 1 (registerForm "Alan" "Turing" "alan@example.org") "u2"

theorem isolated_iff_twoRegistrations :
    Along next (launch {}) twoRegistrations Isolated ↔
      ∀ pre i post d', twoRegistrations = pre ++ .serve i (.setData (.success ())) :: post →
        run next (launch {}) pre = some d' → Unobtrusive d' i := by
  have hrun : run next (launch {}) twoRegistrations = some _ := rfl
  exact isolated_iff hrun

/-- The second registration replaces the first user's document. -/
theorem twoRegistrations_not_isolated :
    ∃ d, run next (launch {}) twoRegistrations = some d ∧ ¬ Isolated d := by
  have hrun : run next (launch {}) twoRegistrations = some _ := rfl
  refine ⟨_, hrun, fun hiso => ?_⟩
  have hsame : "u2" = "u1" := hiso.unique hrun ⟨_, _, .head _⟩ ⟨_, _, .tail _ (.head _)⟩
  exact absurd hsame (by decide)

end Device

end Pompeius
