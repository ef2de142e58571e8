import Pompeius.Model.Rules
import Pompeius.Proofs.Labels
import Pompeius.Proofs.Stages

/-!
# What the rules let happen

Before the day they name the rules change nothing: a deployment is the device
with a clock, so all that is known about runs of the device is known about runs
under the rules. From that day on the collection stands still. Accounts are
still opened and photos still uploaded, and of the writes that follow, a
registration's is reported on its screen as failed, while those of the two
profile pages, which have no completion handler, are lost in silence.
-/

namespace Pompeius

open Lib Device

/-- What was answered and has a completion handler was delivered or will be. -/
theorem answered_of_life {t : Tap} {call : Option Call} {ds : List Deed} (h : Life t call ds) :
    ∀ r a, .served r a ∈ ds → r.awaits = true →
      call = some ⟨r, some a⟩ ∨ .delivered r a ∈ ds := by
  induction h with
  | tap _ =>
      intro r a hmem _
      exact absurd hmem served_not_mem_deeds
  | @serve r' a' ds _ _ ih =>
      intro r a hmem hawaits
      rcases List.mem_cons.mp hmem with heq | hmem
      · cases heq
        exact .inl (if_pos hawaits)
      · rcases ih r a hmem hawaits with hcall | hdelivered
        · cases hcall
        · exact .inr (List.mem_cons_of_mem _ hdelivered)
  | @deliver r' a' eff ds _ _ ih =>
      intro r a hmem hawaits
      refine .inr (List.mem_append_right _ ?_)
      rcases List.mem_append.mp hmem with hmem | hmem
      · exact absurd hmem served_not_mem_deeds
      · rcases List.mem_cons.mp hmem with heq | hmem
        · cases heq
        · rcases ih r a hmem hawaits with hcall | hdelivered
          · cases hcall
            exact List.mem_cons_self
          · exact List.mem_cons_of_mem _ hdelivered

namespace Deployment

/-- The day the rules name. -/
def deadline : Nat := timestampDate 2020 9 27

variable {b : Backend} {t₀ : Nat} {s s' : Deployment} {e : Event} {evs : List Event}

/-- The event of the device, if time did not just pass. -/
def Event.device? : Event → Option Device.Event
  | .wait _ => none
  | .device e => some e

theorem next_device {e : Device.Event} (h : s.next (.device e) = some s') :
    s.permits e = true ∧ ∃ d, s.device.next e = some d ∧ s' = { s with device := d } := by
  have hif : (if s.permits e then (s.device.next e).map fun device => { s with device := device }
      else none) = some s' := h
  split at hif
  · rename_i hpermits
    obtain ⟨d, hd, rfl⟩ := Option.map_eq_some_iff.mp hif
    exact ⟨hpermits, d, hd, rfl⟩
  · cases hif

theorem device_of_next (h : s.next e = some s') :
    run Device.next s.device e.device?.toList = some s'.device := by
  cases e with
  | wait duration =>
      cases h
      rfl
  | device e =>
      obtain ⟨-, d, hd, rfl⟩ := next_device h
      exact run_cons_some.mpr ⟨d, hd, rfl⟩

/-- A run under the rules is a run. -/
theorem device_of_run (h : run next s evs = some s') :
    run Device.next s.device (evs.filterMap Event.device?) = some s'.device := by
  refine run_rec (motive := fun evs s' =>
    run Device.next s.device (evs.filterMap Event.device?) = some s'.device)
    rfl (fun {es u e u'} _ ih hs => ?_) h
  rw [List.filterMap_append]
  refine run_append_some.mpr ⟨u.device, ih, ?_⟩
  have hstep := device_of_next hs
  cases e <;> exact hstep

/-- Before that day the rules allow everything. -/
theorem permits_of_lt (h : s.time < deadline) (e : Device.Event) : s.permits e = true := by
  unfold permits
  split
  · split
    · exact decide_eq_true h
    · rfl
  · rfl

/-- From that day on no write succeeds. -/
theorem not_permits_of_le (h : deadline ≤ s.time) {i : Nat} {w : DocumentWrite} {c : Bool}
    (hcall : s.device.calls i = some ⟨.setData w c, none⟩) :
    s.permits (.serve i (.setData (.success ()))) = false := by
  simp only [permits, hcall]
  exact decide_eq_false (Nat.not_lt.mpr h)

/-- What a step of a closed deployment adds to the record. -/
structure Closed (s s' : Deployment) : Prop where
  time : deadline ≤ s'.time
  users : s'.device.users = s.device.users
  history : ∃ newer, s'.device.history = newer ++ s.device.history ∧
    ∀ i w c a, (i, .served (.setData w c) a) ∈ newer → ∃ e, a = .setData (.failure e)

theorem Closed.refl (h : deadline ≤ s.time) : Closed s s :=
  ⟨h, rfl, [], rfl, fun _ _ _ _ hmem => absurd hmem List.not_mem_nil⟩

theorem Closed.trans {s'' : Deployment} (h : Closed s s') (h' : Closed s' s'') : Closed s s'' := by
  obtain ⟨newer, hnewer, hfailed⟩ := h.history
  obtain ⟨newest, hnewest, hfailed'⟩ := h'.history
  refine ⟨h'.time, h'.users.trans h.users, newest ++ newer, ?_, fun i w c a hmem => ?_⟩
  · rw [hnewest, hnewer, List.append_assoc]
  · rcases List.mem_append.mp hmem with hmem | hmem
    · exact hfailed' i w c a hmem
    · exact hfailed i w c a hmem

theorem served_not_mem_map_deeds {eff : Effects} {i j : Nat} {r : Request} {a : Answer} :
    (j, .served r a) ∉ (deeds eff).map (i, ·) := by
  intro hmem
  obtain ⟨x, hx, heq⟩ := List.mem_map.mp hmem
  cases heq
  exact served_not_mem_deeds hx

theorem closed_step (hclosed : deadline ≤ s.time) (h : s.next e = some s') : Closed s s' := by
  cases e with
  | wait duration =>
      cases h
      exact ⟨Nat.le_trans hclosed (Nat.le_add_right _ _), rfl, (Closed.refl hclosed).history⟩
  | device e =>
      obtain ⟨hpermits, d, hd, rfl⟩ := next_device h
      cases step_of_next hd with
      | invoke _ =>
          exact ⟨hclosed, rfl, _, rfl, fun i w c a hmem => absurd hmem served_not_mem_map_deeds⟩
      | @serve i r a hcall hfits _ =>
          have hfailed : ∀ w c, r = .setData w c → ∃ e, a = .setData (.failure e) := by
            rintro w c rfl
            obtain ⟨reply, rfl⟩ := fits_setData (fits_of_permits hfits)
            cases reply with
            | failure e => exact ⟨e, rfl⟩
            | success _ =>
                rw [not_permits_of_le hclosed hcall] at hpermits
                cases hpermits
          refine ⟨hclosed, ?_, [_], rfl, fun j w c a' hmem => ?_⟩
          · show s.device.usersAfter r a = s.device.users
            unfold Backend.usersAfter
            split
            · obtain ⟨e, heq⟩ := hfailed _ _ rfl
              cases heq
            · rfl
          · rw [List.mem_singleton, Prod.mk.injEq, Deed.served.injEq] at hmem
            obtain ⟨-, hr, rfl⟩ := hmem
            exact hfailed w c hr.symm
      | @deliver i r a eff _ _ _ =>
          have hadded : (deeds eff).map (i, ·) ++ ((i, .delivered r a) :: s.device.history) =
              (deeds eff).map (i, ·) ++ [(i, .delivered r a)] ++ s.device.history :=
            List.append_cons _ _ _
          refine ⟨hclosed, rfl, _, hadded, fun j w c a' hmem => ?_⟩
          rcases List.mem_append.mp hmem with hmem | hmem
          · exact absurd hmem served_not_mem_map_deeds
          · cases List.mem_singleton.mp hmem
      | announce _ => exact ⟨hclosed, rfl, (Closed.refl hclosed).history⟩
      | auth => exact ⟨hclosed, rfl, (Closed.refl hclosed).history⟩

theorem closed_of_run (hclosed : deadline ≤ s.time) (h : run next s evs = some s') :
    Closed s s' :=
  run_rec (motive := fun _ s' => Closed s s') (Closed.refl hclosed)
    (fun _ ih hs => ih.trans (closed_step ih.time hs)) h

/-- What the rules do to a run: nothing until their day, and from then on no
write takes effect and every registration hears so. -/
theorem rules_of_run (h : run next (launch b t₀) evs = some s) :
    run Device.next (Device.launch b) (evs.filterMap Event.device?) = some s.device ∧
    (s.time < deadline → ∀ e, s.next (.device e) =
      (s.device.next e).map fun device => { s with device := device }) ∧
    (deadline ≤ s.time → ∀ more s', run next s more = some s' →
      s'.device.users = s.device.users ∧
      ∃ newer, s'.device.history = newer ++ s.device.history ∧
        (∀ i w c a, (i, .served (.setData w c) a) ∈ newer → ∃ e, a = .setData (.failure e)) ∧
        ∀ i w a, (i, .served (.setData w true) a) ∈ newer → s'.device.calls i = none →
          (i, .ui (.showError "User's name could not be uploaded to database")) ∈
            s'.device.history) := by
  refine ⟨device_of_run h, fun hopen e => if_pos (permits_of_lt hopen e),
    fun hclosed more s' hmore => ?_⟩
  obtain ⟨-, husers, newer, hnewer, hfailed⟩ := closed_of_run hclosed hmore
  have hdevice : run Device.next (Device.launch b)
      ((evs ++ more).filterMap Event.device?) = some s'.device :=
    device_of_run (run_append_some.mpr ⟨s, h, hmore⟩)
  refine ⟨husers, newer, hnewer, hfailed, fun i w a hserved hsettled => ?_⟩
  have hmem : (i, .served (.setData w true) a) ∈ s'.device.history := by
    rw [hnewer]
    exact List.mem_append_left _ hserved
  obtain ⟨t, ht⟩ := exists_tap_of_run hdevice hmem
  have hlife := life_of_run hdevice ht
  obtain ⟨e, rfl⟩ := hfailed i w true a hserved
  rw [hsettled] at hlife
  rcases answered_of_life hlife _ _ (mem_deedsOf.mpr hmem) rfl with hcall | hdelivered
  · cases hcall
  · exact mem_deedsOf.mp ((reports_of_life hlife _).mpr (.inr ⟨_, _, hdelivered, rfl⟩))

/-- A registration on the day itself. -/
def lateRegistration : List Event :=
  [.device (.invoke 0 (.registerButton { passwordField := ⟨"passw0rd!"⟩ })),
   .device (.serve 0 (.createUser (.success "u1"))), .device .announce, .device (.deliver 0),
   .device (.serve 0 (.setData (.failure ⟨"Missing or insufficient permissions."⟩))),
   .device (.deliver 0)]

theorem rules_of_run_late :
    ∃ s s', run next (launch {} 0) [.wait deadline] = some s ∧
      run next s lateRegistration = some s' ∧ s'.device.users = s.device.users ∧
      ∃ newer, s'.device.history = newer ++ s.device.history ∧
        ∀ i w a, (i, .served (.setData w true) a) ∈ newer → s'.device.calls i = none →
          (i, .ui (.showError "User's name could not be uploaded to database")) ∈
            s'.device.history := by
  have hwait : run next (launch {} 0) [.wait deadline] = some ⟨Device.launch {}, 0 + deadline⟩ :=
    rfl
  have hview : (run next ⟨Device.launch {}, 0 + deadline⟩ lateRegistration).map
      (fun s => s.time) = some (0 + deadline) := rfl
  obtain ⟨s', hlate, -⟩ := Option.map_eq_some_iff.mp hview
  have hrules := (rules_of_run hwait).2.2
  obtain ⟨husers, newer, hnewer, -, hreported⟩ :=
    hrules (Nat.le_add_left _ _) lateRegistration s' hlate
  exact ⟨_, s', hwait, hlate, husers, newer, hnewer, hreported⟩

end Deployment

end Pompeius
