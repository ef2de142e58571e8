import Mathlib.Algebra.BigOperators.Group.Finset.Basic
import Pompeius.Lib.Potential
import Pompeius.Proofs.History

/-!
# Every callback comes to an end

A call in flight is worth the events its tap can still go through: it is
served, a sign-in is announced, its completion handler is delivered, and the
handler may put the next call in flight. `Request.toll` counts them, five for a
page 1 just submitted, and the whole device is worth the sum over its taps and
the announcements that are pending.

Callbacks pay for themselves out of that sum, and a tap puts at most five in,
so the callbacks of a run are bounded by its taps (`callbacks_le_of_run`). Nor is
the device stuck while one of them could help: an announcement can be heard, an
answered call be delivered, an unanswered one refused, all but the writes that
are queued for somebody else. Those wait until their user signs in again, however
long that takes. So callbacks alone bring the device to rest in whatever order
they come, and what they leave in flight was waiting for another user all along
(`comes_to_rest`); where nobody else has left a write behind, nothing is.
-/

namespace Pompeius

open Lib Finset

/-- Does a success of it sign somebody in? -/
def Request.signsIn : Request → Bool
  | .signIn .. => true
  | .createUser .. => true
  | _ => false

/-- How many events a request has before it once it is answered and announced. -/
def Request.owed : Request → Nat
  | .signIn .. => 1
  | .createUser .. => 3
  | .putData .. => 4
  | .downloadURL .. => 2
  | .setData _ true => 1
  | .setData _ false => 0

/-- How many events a request just made has before it. -/
def Request.toll (r : Request) : Nat := 1 + (if r.signsIn then 1 else 0) + r.owed

/-- What is left of it for a call in flight, the announcement apart. -/
def callToll : Option Call → Nat
  | none => 0
  | some ⟨r, none⟩ => r.toll
  | some ⟨r, some _⟩ => r.owed

theorem Request.toll_le (r : Request) : r.toll ≤ 5 := by
  cases r with
  | setData w awaits => cases awaits <;> simp [toll, signsIn, owed]
  | _ => simp [toll, signsIn, owed]

theorem callToll_call (eff : Effects) : callToll eff.call ≤ 5 := by
  rw [Effects.call]
  cases eff.request with
  | none => exact Nat.zero_le 5
  | some r => exact r.toll_le

theorem callToll_after (r : Request) (a : Answer) : callToll (r.after a) = r.owed := by
  unfold Request.after
  split
  · rfl
  · rename_i hawaits
    cases r with
    | setData w awaits =>
        cases awaits with
        | false => rfl
        | true => exact absurd rfl hawaits
    | _ => exact absurd rfl hawaits

theorem signsIn_of_fits {r : Request} {a : Answer} (hfit : r.fits a = true)
    (h : a.signsIn = true) : r.signsIn = true := by
  cases a with
  | signIn reply => cases r <;> first | rfl | cases hfit
  | createUser reply => cases r <;> first | rfl | cases hfit
  | _ => cases h

/-- A completion handler leaves its tap at least one event fewer than the call it
answers had. -/
theorem callToll_completion {r : Request} {a : Answer} {eff : Effects} (hr : r.awaits = true)
    (h : completion r a = .ok eff) : callToll eff.call + 1 ≤ r.owed := by
  -- an answer of another kind changes nothing
  have hquiet : 1 ≤ r.owed → eff = {} → callToll eff.call + 1 ≤ r.owed := by
    rintro hle rfl
    exact hle
  cases r with
  | signIn email password =>
      cases a with
      | signIn reply => cases reply <;> cases h <;> simp [Effects.call, callToll, Request.owed]
      | _ => exact hquiet (by simp [Request.owed]) (Except.ok.inj h).symm
  | createUser email password firstName lastName =>
      cases a with
      | createUser reply =>
          cases reply <;> cases h <;>
            simp [Effects.call, callToll, Request.toll, Request.signsIn, Request.owed]
      | _ => exact hquiet (by simp [Request.owed]) (Except.ok.inj h).symm
  | putData ref object dict =>
      cases a with
      | putData reply =>
          cases reply <;> cases h <;>
            simp [Effects.call, callToll, Request.toll, Request.signsIn, Request.owed]
      | _ => exact hquiet (by simp [Request.owed]) (Except.ok.inj h).symm
  | downloadURL ref dict =>
      cases a with
      | downloadURL reply =>
          cases reply <;> cases h <;>
            simp [Effects.call, callToll, Request.toll, Request.signsIn, Request.owed]
      | _ => exact hquiet (by simp [Request.owed]) (Except.ok.inj h).symm
  | setData w awaits =>
      cases awaits with
      | false => cases hr
      | true =>
          cases a with
          | setData reply => cases reply <;> cases h <;> simp [Effects.call, callToll, Request.owed]
          | _ => exact hquiet (by simp [Request.owed]) (Except.ok.inj h).symm

/-- Only a call somebody waits for stays in flight once it was answered. -/
theorem awaits_of_life {t : Tap} {call : Option Call} {ds : List Deed} (h : Life t call ds) :
    ∀ r a, call = some ⟨r, some a⟩ → r.awaits = true := by
  intro r a hcall
  cases h with
  | @tap eff _ =>
      obtain ⟨r', -, heq⟩ := Option.map_eq_some_iff.mp hcall
      cases heq
  | @serve r' a' ds' _ _ =>
      unfold Request.after at hcall
      split at hcall
      · rename_i hawaits
        cases hcall
        exact hawaits
      · cases hcall
  | @deliver r' a' eff ds' _ _ =>
      obtain ⟨r'', -, heq⟩ := Option.map_eq_some_iff.mp hcall
      cases heq

namespace Device

/-- An event with which the outside answers the program. -/
def Event.callback : Event → Bool
  | .serve _ _ | .deliver _ | .announce => true
  | _ => false

/-- Somebody signs in or out outside the program. -/
def Event.isAuth : Event → Bool
  | .auth _ => true
  | _ => false

/-- The callback events the device still has before it. -/
def outstanding (d : Device) : Nat :=
  ∑ i ∈ range d.taps.length, callToll (d.calls i) + d.announcements.length

/-- Moving one call on changes the sum by what it changes for that call. -/
theorem sum_update {n i : Nat} (hi : i < n) (calls : Nat → Option Call) (call : Option Call) :
    ∑ j ∈ range n, callToll (Function.update calls i call j) + callToll (calls i) =
      ∑ j ∈ range n, callToll (calls j) + callToll call := by
  have hmem : i ∈ range n := mem_range.mpr hi
  rw [← add_sum_erase _ _ hmem, ← add_sum_erase (range n) (fun j => callToll (calls j)) hmem]
  have hrest : ∑ j ∈ (range n).erase i, callToll (Function.update calls i call j) =
      ∑ j ∈ (range n).erase i, callToll (calls j) := by
    refine sum_congr rfl fun j hj => ?_
    rw [Function.update_of_ne (ne_of_mem_erase hj)]
  rw [hrest, Function.update_self]
  omega

/-- A callback takes at least one away, a tap brings at most five, somebody else
signing in one. -/
theorem outstanding_step {d d' : Device} {e : Event} (hl : Lives d) (h : Step d e d') :
    (if e.callback then 1 else 0) + d'.outstanding + 5 * d.taps.length ≤
      d.outstanding + (if e.isAuth then 1 else 0) + 5 * d'.taps.length := by
  cases h with
  | @invoke self inv eff heff =>
      have hlen : (d.tapped self inv eff).taps.length = d.taps.length + 1 :=
        List.length_append
      have hout : (d.tapped self inv eff).outstanding = ∑ j ∈ range (d.taps.length + 1),
          callToll (Function.update d.calls d.taps.length eff.call j) +
            d.announcements.length := by
        rw [outstanding, hlen]
        rfl
      rw [sum_range_succ, Function.update_self] at hout
      have hrest : ∑ j ∈ range d.taps.length,
          callToll (Function.update d.calls d.taps.length eff.call j) =
            ∑ j ∈ range d.taps.length, callToll (d.calls j) := by
        refine sum_congr rfl fun j hj => ?_
        rw [Function.update_of_ne (Nat.ne_of_lt (mem_range.mp hj))]
      have hnew := callToll_call eff
      rw [hlen, hout, hrest]
      show 0 + _ + _ ≤ ∑ j ∈ range d.taps.length, callToll (d.calls j) + _ + 0 + _
      omega
  | @serve i r a hcall hperm _ =>
      obtain ⟨t, ht⟩ := hl.exists_tap hcall
      have hsum := sum_update (List.getElem?_eq_some_iff.mp ht).1 d.calls (r.after a)
      rw [hcall, callToll_after] at hsum
      change _ + (1 + (if r.signsIn then 1 else 0) + r.owed) = _ at hsum
      have hann : (d.answered i r a).announcements.length ≤
          d.announcements.length + if r.signsIn then 1 else 0 := by
        show (d.announcements ++ _).length ≤ _
        rw [List.length_append]
        cases hsign : a.signsIn with
        | false => exact Nat.add_le_add_left (Nat.zero_le _) _
        | true => rw [signsIn_of_fits (fits_of_permits hperm) hsign, if_pos rfl, if_pos rfl]; rfl
      show 1 + (∑ j ∈ range d.taps.length, callToll (Function.update d.calls i (r.after a) j) +
        (d.answered i r a).announcements.length) + 5 * d.taps.length ≤
          ∑ j ∈ range d.taps.length, callToll (d.calls j) + d.announcements.length + 0 +
            5 * d.taps.length
      omega
  | @deliver i r a eff hcall _ heff =>
      obtain ⟨t, ht⟩ := hl.exists_tap hcall
      have hawaits := awaits_of_life (hl.born i t ht) r a hcall
      have hsum := sum_update (List.getElem?_eq_some_iff.mp ht).1 d.calls eff.call
      have htoll := callToll_completion hawaits heff
      rw [hcall] at hsum
      change _ + r.owed = _ at hsum
      show 1 + (∑ j ∈ range d.taps.length, callToll (Function.update d.calls i eff.call j) +
        d.announcements.length) + 5 * d.taps.length ≤
          ∑ j ∈ range d.taps.length, callToll (d.calls j) + d.announcements.length + 0 +
            5 * d.taps.length
      omega
  | @announce x rest hann =>
      have hlen : d.announcements.length = rest.length + 1 := congrArg List.length hann
      show 1 + (∑ j ∈ range d.taps.length, callToll (d.calls j) + rest.length) +
        5 * d.taps.length ≤ ∑ j ∈ range d.taps.length, callToll (d.calls j) +
          d.announcements.length + 0 + 5 * d.taps.length
      omega
  | auth =>
      show 0 + (∑ j ∈ range d.taps.length, callToll (d.calls j) + (d.announcements ++ [_]).length) +
        5 * d.taps.length ≤ ∑ j ∈ range d.taps.length, callToll (d.calls j) +
          d.announcements.length + 1 + 5 * d.taps.length
      rw [List.length_append, List.length_singleton]
      omega

/-! ## The device is never stuck -/

/-- Nothing is in flight but writes that wait for a user Firestore does not work
for. -/
structure AtRest (d : Device) : Prop where
  heard : d.announcements = []
  waiting : ∀ i call, d.calls i = some call → ∃ r u, call = ⟨r, none⟩ ∧ r.isWrite = true ∧
    (u, i) ∈ d.pipeline ∧ u ≠ d.firestoreUser

/-- The answer that refuses a request. -/
def refusal (e : NSError) : Request → Answer
  | .signIn .. => .signIn (.failure e)
  | .createUser .. => .createUser (.failure e)
  | .putData .. => .putData (.failure e)
  | .downloadURL .. => .downloadURL (.failure e)
  | .setData .. => .setData (.failure e)

theorem permits_refusal (b : Backend) (e : NSError) (r : Request) :
    b.permits r (refusal e r) = true := by
  cases r <;> rfl

theorem signsIn_refusal (e : NSError) (r : Request) : (refusal e r).signsIn = false := by
  cases r <;> rfl

/-- The same user is signed in after the step, and the writes of others stand where
they stood. -/
structure Undisturbed (d d' : Device) : Prop where
  currentUser : d'.currentUser = d.currentUser
  waiting : ∀ p ∈ d'.pipeline, p.1 ≠ d.currentUser →
    p ∈ d.pipeline ∧ d'.calls p.2 = d.calls p.2

/-- A completion handler leaves the waiting writes alone. -/
theorem undisturbed_resumed {d : Device} (hq : Queued d) (huser : d.firestoreUser = d.currentUser)
    {i : Nat} {r : Request} {a : Answer} {eff : Effects} (hcall : d.calls i = some ⟨r, some a⟩) :
    Undisturbed d (d.resumed i r a eff) := by
  refine ⟨rfl, fun p hp hother => ?_⟩
  have hmem : p ∈ d.pipeline := by
    rcases List.mem_append.mp hp with hp | hp
    · exact hp
    · split at hp
      · rw [List.mem_singleton.mp hp] at hother
        exact absurd huser hother
      · cases hp
  have hne : p.2 ≠ i := by
    rintro rfl
    obtain ⟨r', hr', -⟩ := (hq.waiting p.2).mp (List.mem_map_of_mem hmem)
    rw [hcall] at hr'
    cases hr'
  exact ⟨hmem, Function.update_of_ne hne ..⟩

/-- So does a refusal, the refused write apart. -/
theorem undisturbed_refused {d : Device} (hq : Queued d) {i : Nat} {r : Request} (e : NSError)
    (hcall : d.calls i = some ⟨r, none⟩) (hnext : r.isWrite = true → d.nextWrite = some i) :
    Undisturbed d (d.answered i r (refusal e r)) := by
  refine ⟨userAfter_of_signsIn (signsIn_refusal e r), fun p hp hother => ?_⟩
  have hne : p.2 ≠ i := by
    rintro rfl
    exact not_waiting_answered
      (((queued_answered hq hcall hnext).waiting p.2).mp (List.mem_map_of_mem hp))
  exact ⟨mem_of_mem_pipeline_answered hp, calls_answered_of_ne hne r _⟩

/-- A device that is not at rest has a callback before it, and one that disturbs
nobody. -/
theorem exists_callback {d : Device} (hq : Queued d) (huser : d.announcedUser = d.currentUser)
    (h : ¬ d.AtRest) : ∃ e d', e.callback = true ∧ Step d e d' ∧ Undisturbed d d' := by
  cases hann : d.announcements with
  | cons x rest =>
      exact ⟨.announce, _, rfl, .announce hann, rfl, fun p hp _ => ⟨hp, rfl⟩⟩
  | nil =>
      have hunheard : ∀ i, ¬ d.Unannounced i := by
        rintro i ⟨x, hx, -⟩
        rw [hann] at hx
        cases hx
      -- a call that does not wait for another user
      obtain ⟨i, call, hcall, hstuck⟩ : ∃ i call, d.calls i = some call ∧
          ¬ ∃ r u, call = ⟨r, none⟩ ∧ r.isWrite = true ∧ (u, i) ∈ d.pipeline ∧
            u ≠ d.firestoreUser := by
        refine not_forall_not.mp fun hnone => h ⟨hann, fun i call hcall => ?_⟩
        exact not_not.mp fun hstuck => hnone i ⟨call, hcall, hstuck⟩
      obtain ⟨r, answer⟩ := call
      cases answer with
      | some a =>
          obtain ⟨eff, heff⟩ := completion_ok r a
          exact ⟨.deliver i, _, rfl, .deliver hcall (hunheard i) heff,
            undisturbed_resumed hq (firestoreUser_of_heard huser hann) hcall⟩
      | none =>
          cases hw : r.isWrite with
          | false =>
              have hnext : r.isWrite = true → d.nextWrite = some i := fun hw' => by
                rw [hw] at hw'
                cases hw'
              exact ⟨.serve i _, _, rfl, .serve hcall (permits_refusal _ ⟨"refused"⟩ r) hnext,
                undisturbed_refused hq _ hcall hnext⟩
          | true =>
              -- not this write, perhaps, but the first one of its user
              obtain ⟨⟨u, j⟩, hmem, hij⟩ := List.mem_map.mp ((hq.waiting i).mpr ⟨r, hcall, hw⟩)
              obtain rfl : j = i := hij
              obtain rfl : u = d.firestoreUser := not_not.mp fun hne =>
                hstuck ⟨r, u, rfl, hw, hmem, hne⟩
              obtain ⟨k, hk⟩ := Option.isSome_iff_exists.mp (nextWrite_isSome.mpr ⟨j, hmem⟩)
              obtain ⟨r', hr', -⟩ := (hq.waiting k).mp (List.mem_map_of_mem (mem_of_nextWrite hk))
              exact ⟨.serve k _, _, rfl, .serve hr' (permits_refusal _ ⟨"refused"⟩ r') fun _ => hk,
                undisturbed_refused hq _ hr' fun _ => hk⟩

/-- At rest no callback is left. -/
theorem AtRest.no_callback {d d' : Device} (hq : Queued d) (h : d.AtRest) {e : Event}
    (he : e.callback = true) : ¬ Step d e d' := by
  intro hs
  cases hs with
  | invoke _ => cases he
  | @serve i r a hcall _ hnext =>
      obtain ⟨r', u, heq, hw, hmem, hne⟩ := h.waiting i _ hcall
      cases heq
      have hfirst := mem_of_nextWrite (hnext hw)
      exact hne (congrArg Prod.fst (List.inj_on_of_nodup_map hq.once hmem hfirst rfl))
  | @deliver i r a eff hcall _ _ =>
      obtain ⟨r', u, heq, -⟩ := h.waiting i _ hcall
      cases heq
  | announce hann =>
      rw [h.heard] at hann
      cases hann
  | auth => cases he

/-! ## Runs -/

section

variable {b : Backend} {evs : List Event} {d : Device}

/-- A run has at most five callback events for each tap and one for each time
somebody else signed in or out, those it still owes included. -/
theorem callbacks_le_of_run (h : run next (launch b) evs = some d) :
    evs.countP Event.callback + d.outstanding ≤ 5 * d.taps.length + evs.countP Event.isAuth := by
  refine run_rec (motive := fun evs d => evs.countP Event.callback + d.outstanding ≤
    5 * d.taps.length + evs.countP Event.isAuth)
    (Nat.le_refl 0) (fun {es d e d'} hrun ih hs => ?_) h
  have hstep := outstanding_step (lives_of_run hrun) (step_of_next hs)
  rw [List.countP_append, List.countP_append, List.countP_singleton, List.countP_singleton]
  omega

theorem taps_of_callbacks {rest : List Event} {d d' : Device}
    (hall : ∀ e ∈ rest, e.callback = true) (h : run next d rest = some d') : d'.taps = d.taps :=
  taps_of_run h fun _ _ hmem => absurd (hall _ hmem) Bool.false_ne_true

/-- What the callbacks that bring a device to rest keep of the device `d` they
started from. -/
structure Unwinding (d s : Device) : Prop where
  lives : Lives s
  queued : Queued s
  announced : s.announcedUser = s.currentUser
  undisturbed : Undisturbed d s

theorem unwinding_step {d s s' : Device} {e : Event} (h : Unwinding d s) (hs : Step s e s')
    (hstep : Undisturbed s s') : Unwinding d s' where
  lives := lives_step h.lives hs
  queued := queued_step h.lives h.queued hs
  announced := announcedUser_step h.announced hs
  undisturbed := by
    refine ⟨hstep.currentUser.trans h.undisturbed.currentUser, fun p hp hother => ?_⟩
    obtain ⟨hmem, hcall⟩ := hstep.waiting p hp (h.undisturbed.currentUser ▸ hother)
    obtain ⟨hmem', hcall'⟩ := h.undisturbed.waiting p hmem hother
    exact ⟨hmem', hcall.trans hcall'⟩

/-- Callbacks come to an end whatever their order: those of a run and of any
continuation by callbacks are at most five for each tap and one for each time
somebody else signed in or out, and they end at rest and nowhere else. Some
continuation ends there without signing anybody in, and all it leaves in flight
are writes that waited for another user from the start. -/
theorem comes_to_rest (h : run next (launch b) evs = some d) :
    (∀ rest d', (∀ e ∈ rest, e.callback = true) → run next d rest = some d' →
      evs.countP Event.callback + rest.length ≤
        5 * d.taps.length + evs.countP Event.isAuth ∧
      (d'.AtRest ↔ ¬ ∃ e d'', e.callback = true ∧ next d' e = some d'')) ∧
    ∃ rest d', (∀ e ∈ rest, e.callback = true) ∧ run next d rest = some d' ∧ d'.AtRest ∧
      d'.currentUser = d.currentUser ∧
      ∀ i call, d'.calls i = some call → d.calls i = some call ∧
        ∃ u, (u, i) ∈ d.pipeline ∧ u ≠ d.currentUser := by
  constructor
  · intro rest d' hall hrun
    have hwhole : run next (launch b) (evs ++ rest) = some d' :=
      run_append_some.mpr ⟨d, h, hrun⟩
    constructor
    · have hcount := callbacks_le_of_run hwhole
      have hrest : rest.countP Event.callback = rest.length := List.countP_eq_length.mpr hall
      have hauth : rest.countP Event.isAuth = 0 := by
        refine List.countP_eq_zero.mpr fun e he => ?_
        have hcallback := hall e he
        cases e <;> first | exact Bool.false_ne_true | cases hcallback
      have htaps : d'.taps = d.taps := taps_of_callbacks hall hrun
      rw [List.countP_append, List.countP_append, hrest, hauth, htaps] at hcount
      omega
    · constructor
      · rintro hrest ⟨e, d'', he, hs⟩
        exact hrest.no_callback (queued_of_run hwhole) he (step_of_next hs)
      · refine fun hnone => not_not.mp fun hmoving => hnone ?_
        obtain ⟨e, d'', he, hs, -⟩ :=
          exists_callback (queued_of_run hwhole) (announcedUser_of_run hwhole) hmoving
        exact ⟨e, d'', he, next_of_step hs⟩
  · have hstep : ∀ s, Unwinding d s → ¬ s.AtRest → ∃ e s', e.callback = true ∧
        next s e = some s' ∧ Unwinding d s' ∧ s'.outstanding < s.outstanding := by
      intro s hu hmoving
      obtain ⟨e, s', he, hs, hundisturbed⟩ := exists_callback hu.queued hu.announced hmoving
      have hspent := outstanding_step hu.lives hs
      have htaps : s'.taps = s.taps :=
        taps_of_callbacks (List.forall_mem_singleton.mpr he)
          (run_cons_some.mpr ⟨s', next_of_step hs, rfl⟩)
      have hauth : e.isAuth = false := by
        cases e <;> first | rfl | cases he
      rw [he, if_pos rfl, hauth, if_neg Bool.false_ne_true, htaps] at hspent
      exact ⟨e, s', he, next_of_step hs, unwinding_step hu hs hundisturbed, by omega⟩
    have hstart : Unwinding d d := ⟨lives_of_run h, queued_of_run h, announcedUser_of_run h,
      rfl, fun p hp _ => ⟨hp, rfl⟩⟩
    obtain ⟨rest, d', hall, hrun, hu, hrest, -⟩ := run_drains hstep hstart
    refine ⟨rest, d', hall, hrun, hrest, hu.undisturbed.currentUser, fun i call hcall => ?_⟩
    obtain ⟨r, u, -, -, hmem, hne⟩ := hrest.waiting i call hcall
    have huser : d'.firestoreUser = d.currentUser :=
      (firestoreUser_of_heard hu.announced hrest.heard).trans hu.undisturbed.currentUser
    rw [huser] at hne
    obtain ⟨hmem', hcall'⟩ := hu.undisturbed.waiting _ hmem hne
    exact ⟨hcall' ▸ hcall, u, hmem', hne⟩

/-- Ada registers, and Alan before her document is sent. -/
def registeredBefore : List Event :=
  [.invoke 0 (.registerButton { passwordField := ⟨"passw0rd!"⟩, emailField := ⟨"ada"⟩ }),
   .serve 0 (.createUser (.success "u1")), .announce, .deliver 0,
   .invoke 1 (.registerButton { passwordField := ⟨"passw0rd!"⟩, emailField := ⟨"alan"⟩ }),
   .serve 1 (.createUser (.success "u2")), .announce, .deliver 1]

theorem comes_to_rest_registeredBefore :
    ∃ d rest d', run next (launch {}) registeredBefore = some d ∧
      run next d rest = some d' ∧ d'.AtRest ∧ d'.currentUser = some ⟨"u2"⟩ ∧
      6 + rest.length ≤ 10 := by
  have hrun : run next (launch {}) registeredBefore = some _ := rfl
  obtain ⟨hcallbacks, rest, d', hall, hrest, hend, huser, -⟩ := comes_to_rest hrun
  exact ⟨_, rest, d', hrun, hrest, hend, huser, (hcallbacks rest d' hall hrest).1⟩

end

end Device

end Pompeius
