import Pompeius.Proofs.Frames

/-!
# What stands on a screen

A screen shows two things that change: what was typed and picked, and an error
label. Both are functions of what happened to it.

What was typed is what was typed in the one visit the screen gets. The shown
controller is always the newest, so a controller that was left never comes back
and nothing is typed on it again; whatever comes up comes up blank. The label is
hidden until a handler or a completion handler of a tap on that very screen
reports an error, and from then on shows the report made last: no success ever
takes it down. `one_visit` and `labels_of_run` say so of whole runs.

`Tells` is the step behind both: what each function of the app does to all the
screens at once, with a rule for each.
-/

namespace Pompeius

open Lib

namespace Controller

/-- The fields, the image and the error label, without the document ids. -/
def sheet : Controller → Controller
  | register self => register { self with docID := "Default Value" }
  | myProfile self => myProfile { self with currentUserDocId := "" }
  | c => c

/-- The fields and the image alone. -/
def form : Controller → Controller
  | login self => login { self with errorLabel := hiddenLabel }
  | register self => register { self with docID := "Default Value", errorLabel := hiddenLabel }
  | myProfile self => myProfile { self with currentUserDocId := "", errorLabel := hiddenLabel }
  | myProfile2 self => myProfile2 { self with errorLabel := hiddenLabel }
  | c => c

/-- The controller after its error label has shown these messages in turn. -/
def told (messages : List String) (c : Controller) : Controller :=
  messages.foldl (fun c message => c.showError message) c

theorem sheet_showError (message : String) (c : Controller) :
    (c.showError message).sheet = c.sheet.showError message := by
  cases c <;> rfl

theorem form_told (messages : List String) (c : Controller) : (c.told messages).form = c.form := by
  induction messages generalizing c with
  | nil => rfl
  | cons message messages ih =>
      show ((c.showError message).told messages).form = _
      rw [ih]
      cases c <;> rfl

theorem scene_told (messages : List String) (c : Controller) :
    (c.told messages).scene = c.scene := by
  induction messages generalizing c with
  | nil => rfl
  | cons message messages ih =>
      show ((c.showError message).told messages).scene = _
      rw [ih, scene_showError]

/-- The last message is the one that stands there. -/
theorem errorLabel_told (messages : List String) (c : Controller) :
    (c.told messages).errorLabel =
      c.errorLabel.map fun label => messages.getLast?.elim label (⟨·, 1⟩) := by
  induction messages generalizing c with
  | nil => cases c <;> rfl
  | cons message messages ih =>
      show ((c.showError message).told messages).errorLabel = _
      rw [ih, List.getLast?_cons]
      cases messages.getLast? <;> cases c <;> rfl

theorem form_sheet (c : Controller) : c.sheet.form = c.form := by
  cases c <;> rfl

theorem errorLabel_sheet (c : Controller) : c.sheet.errorLabel = c.errorLabel := by
  cases c <;> rfl

theorem scene_sheet (c : Controller) : c.sheet.scene = c.scene := by
  cases c <;> rfl

end Controller

theorem Scene.form_instantiate (scene : Scene) : scene.instantiate.form = scene.instantiate := by
  cases scene <;> rfl

theorem Scene.sheet_instantiate (scene : Scene) : scene.instantiate.sheet = scene.instantiate := by
  cases scene <;> rfl

/-- The messages among what a handler does to its screen. -/
def messagesOf (ui : List UIEffect) : List String :=
  ui.filterMap fun
    | .showError message => some message
    | _ => none

/-- What the handler of a button reports on its own screen. -/
def Invocation.reports (h : Invocation) (currentUser : Option User) : List String :=
  match h.run currentUser with
  | .ok eff => messagesOf eff.ui
  | .error _ => []

namespace App

/-! ## What a handler does to all the screens -/

/-- `a'` is `a` after controller `id` ran: it was told these messages, the
others are as they were, and what is new is blank. -/
structure Tells (id : Nat) (messages : List String) (a a' : App) : Prop where
  acts : id < a.controllers.length
  length : a.controllers.length ≤ a'.controllers.length
  old : ∀ j c, a.controllers[j]? = some c → ∃ c', a'.controllers[j]? = some c' ∧
    c'.sheet = if j = id then c.sheet.told messages else c.sheet
  new : ∀ j c', a.controllers.length ≤ j → a'.controllers[j]? = some c' →
    c'.sheet = c'.scene.instantiate

namespace Tells

variable {id : Nat} {a a' a'' : App} {messages messages' : List String}

theorem refl (hid : id < a.controllers.length) : Tells id [] a a where
  acts := hid
  length := Nat.le_refl _
  old _ c hc := ⟨c, hc, (ite_self _).symm⟩
  new _ _ hj hc' := absurd (List.getElem?_eq_some_iff.mp hc').1 (Nat.not_lt.mpr hj)

theorem trans (h : Tells id messages a a') (h' : Tells id messages' a' a'') :
    Tells id (messages ++ messages') a a'' where
  acts := h.acts
  length := Nat.le_trans h.length h'.length
  old j c hc := by
    obtain ⟨c', hc', hsheet⟩ := h.old j c hc
    obtain ⟨c'', hc'', hsheet'⟩ := h'.old j c' hc'
    refine ⟨c'', hc'', ?_⟩
    rw [hsheet', hsheet]
    by_cases hj : j = id
    · rw [if_pos hj, if_pos hj, if_pos hj, Controller.told, Controller.told, Controller.told,
        List.foldl_append]
    · rw [if_neg hj, if_neg hj, if_neg hj]
  new j c'' hj hc'' := by
    rcases Nat.lt_or_ge j a'.controllers.length with hlt | hge
    · -- it was new before, and it is not the one that acts
      obtain ⟨c₁, hc₁, hsheet⟩ := h'.old j _ (List.getElem?_eq_getElem hlt)
      rw [hc''] at hc₁
      cases hc₁
      have hblank := h.new j _ hj (List.getElem?_eq_getElem hlt)
      have hne : j ≠ id := Nat.ne_of_gt (Nat.lt_of_lt_of_le h.acts hj)
      rw [if_neg hne, hblank] at hsheet
      have hscene := congrArg Controller.scene hsheet
      rw [Controller.scene_sheet, Scene.scene_instantiate] at hscene
      rw [hsheet, hscene]
    · exact h'.new j c'' hge hc''

theorem arrive (hid : id < a.controllers.length) {c : Controller}
    (hc : c.sheet = c.scene.instantiate) : Tells id [] a (a.arrive c) where
  acts := hid
  length := by simp [App.arrive]
  old j c₀ hc₀ := by
    have hlt := (List.getElem?_eq_some_iff.mp hc₀).1
    exact ⟨c₀, (List.getElem?_append_left hlt).trans hc₀, (ite_self _).symm⟩
  new j c' hj hc' := by
    change (a.controllers ++ [c])[j]? = some c' at hc'
    rw [List.getElem?_append_right hj] at hc'
    rw [List.mem_singleton.mp (List.mem_of_getElem? hc')]
    exact hc

/-- A controller rewritten in place. -/
theorem update {c c' : Controller} (hc : a.controllers[id]? = some c)
    (hsheet : c'.sheet = c.sheet.told messages) : Tells id messages a (a.update id c') where
  acts := (List.getElem?_eq_some_iff.mp hc).1
  length := by simp [App.update]
  old j c₀ hc₀ := by
    by_cases hj : j = id
    · subst hj
      rw [hc] at hc₀
      cases hc₀
      refine ⟨c', List.getElem?_set_self (List.getElem?_eq_some_iff.mp hc).1, ?_⟩
      rw [if_pos rfl, hsheet]
    · exact ⟨c₀, (List.getElem?_set_ne (Ne.symm hj)).trans hc₀, (if_neg hj).symm⟩
  new j c₀ hj hc₀ := by
    have hlt := (List.getElem?_eq_some_iff.mp hc₀).1
    rw [App.update, List.length_set] at hlt
    exact absurd hlt (Nat.not_lt.mpr hj)

/-- Screens alone count. -/
theorem of_controllers (h : Tells id messages a a') {b b' : App}
    (hb : b.controllers = a.controllers) (hb' : b'.controllers = a'.controllers) :
    Tells id messages b b' := by
  obtain ⟨acts, length, old, new⟩ := h
  rw [← hb] at acts length old new
  rw [← hb'] at length old new
  exact ⟨acts, length, old, new⟩

theorem present (hid : id < a.controllers.length) {c : Controller}
    (hc : c.sheet = c.scene.instantiate) : Ensures (a.present id c) (Tells id [] a) := by
  unfold App.present
  split
  · exact .bind (Q := fun _ => True) (fun _ _ => trivial) fun _ _ => .ok (arrive hid hc)
  · exact .ok (refl hid)

theorem prepare (hid : id < a.controllers.length) (segue : Segue) {c : Controller}
    (hc : c.sheet = c.scene.instantiate) :
    Ensures (a.prepare id segue c) fun p =>
      Tells id [] a p.1 ∧ p.2.sheet = p.2.scene.instantiate := by
  unfold App.prepare
  split
  · rename_i self hself
    split
    · split
      · have htold : Tells id [] a
            (a.update id (.register { self with docID := toString a.documentIDs })) :=
          update hself rfl
        exact .ok ⟨htold.of_controllers rfl rfl, hc⟩
      · exact .error _ _
    · exact .ok ⟨refl hid, hc⟩
  · exact .ok ⟨refl hid, hc⟩

theorem perform (hid : id < a.controllers.length) (segue : Segue) :
    Ensures (a.perform id segue) (Tells id [] a) := by
  refine .bind (prepare hid segue (c := segue.destination.instantiate) ?_) fun p hp => ?_
  · rw [Scene.sheet_instantiate, Scene.scene_instantiate]
  · exact (present (Nat.lt_of_lt_of_le hid hp.1.length) hp.2).mono fun _ h => hp.1.trans h

theorem performSegue (hid : id < a.controllers.length) (identifier : String) :
    Ensures (a.performSegue id identifier) (Tells id [] a) := by
  unfold App.performSegue
  split
  · exact .ok (refl hid)
  · split
    · exact .error _ _
    · exact perform hid _

theorem setRoot (hid : id < a.controllers.length) (identifier : String) :
    Ensures (a.setRoot id identifier) (Tells id [] a) := by
  refine .bind (Q := fun _ => True) (fun _ _ => trivial) fun c _ => ?_
  split
  · split
    · exact .bind (Q := fun _ => True) (fun _ _ => trivial) fun _ _ => .ok (arrive hid rfl)
    · exact .ok ((refl hid).of_controllers rfl rfl)
  · exact .ok (refl hid)

theorem effect (hid : id < a.controllers.length) (e : UIEffect) :
    Ensures (a.effect id e) (Tells id (messagesOf [e]) a) := by
  cases e with
  | showError message =>
      rw [App.effect, List.getElem?_eq_getElem hid]
      exact .ok (update (List.getElem?_eq_getElem hid) (Controller.sheet_showError message _))
  | performSegue identifier => exact performSegue hid identifier
  | setRoot identifier => exact setRoot hid identifier

theorem effects (hid : id < a.controllers.length) (ui : List UIEffect) :
    Ensures (a.effects id ui) (Tells id (messagesOf ui) a) := by
  induction ui generalizing a with
  | nil => exact .ok (refl hid)
  | cons e ui ih =>
      rw [App.effects, List.foldlM_cons]
      refine .bind (effect hid e) fun a' h => ?_
      refine (ih (Nat.lt_of_lt_of_le hid h.length)).mono fun a'' h' => ?_
      have hsplit : messagesOf (e :: ui) = messagesOf [e] ++ messagesOf ui :=
        List.filterMap_append (l := [e])
      rw [hsplit]
      exact h.trans h'

end Tells

/-! ## One event -/

/-- A button sends its screen one action at most, and it is the submission. -/
theorem delivered_submission {b : Button} {c : Controller} (hscene : c.scene = b.scene)
    (hq : b.scene ≠ .q1) :
    b.delivered = [] ∧ b.submission c = none ∨ ∃ action, b.delivered = [action] ∧
      ((∃ h, c.respond action.selector = some (.submit h) ∧ b.submission c = some h) ∨
        (∀ h, c.respond action.selector ≠ some (.submit h)) ∧ b.submission c = none) := by
  cases b <;> first
    | exact absurd rfl hq
    | exact .inl ⟨rfl, rfl⟩
    | cases c <;> first
      | (cases hscene; done)
      | exact .inr ⟨_, rfl, .inl ⟨_, rfl, rfl⟩⟩
      | exact .inr ⟨_, rfl, .inr ⟨by simp [Controller.respond], rfl⟩⟩

section

variable {a a' : App} {e : Event} {id : Nat} {c : Controller}

theorem tells_submit (hid : id < a.controllers.length) {h : Invocation} {eff : Effects}
    (heff : h.run a.device.currentUser = .ok eff) :
    Ensures (a.submit id h) (Tells id (messagesOf eff.ui) a) := by
  rw [submit_eq heff]
  exact (Tells.effects (a := a.withDevice (a.device.tapped id h eff)) hid eff.ui).mono
    fun a' h' => h'.of_controllers rfl rfl

theorem tells_touch (hc : a.controllers[id]? = some c) {b : Button} (hscene : c.scene = b.scene)
    (hq : b.scene ≠ .q1) :
    Ensures (a.touch id b) (Tells id
      ((b.submission c).elim [] fun h => h.reports a.device.currentUser) a) := by
  have hid := (List.getElem?_eq_some_iff.mp hc).1
  have hsegues : ∀ a₁ messages, Tells id messages a a₁ →
      Ensures (b.segues.foldlM (fun a segue => a.perform id segue) a₁) (Tells id messages a) := by
    intro a₁ messages h₁
    refine .foldlM_from (P := Tells id messages a) (fun a₂ segue h₂ => ?_) _ h₁
    refine (Tells.perform (Nat.lt_of_lt_of_le hid h₂.length) segue).mono fun a₃ h₃ => ?_
    rw [← List.append_nil messages]
    exact h₂.trans h₃
  obtain ⟨hnone, hsub⟩ | ⟨action, hone, ⟨h, hrespond, hsub⟩ | ⟨hrespond, hsub⟩⟩ :=
    delivered_submission hscene hq
  · rw [touch, hnone, hsub]
    exact hsegues a [] (.refl hid)
  · obtain ⟨eff, heff⟩ := h.run_ok a.device.currentUser
    have hreports : h.reports a.device.currentUser = messagesOf eff.ui := by
      rw [Invocation.reports, heff]
    rw [touch_of_delivered hone, send_eq hc, hrespond, hsub, Option.elim_some, hreports]
    exact .bind (tells_submit hid heff) fun a₁ h₁ => hsegues a₁ _ h₁
  · rw [touch_of_delivered hone, send_eq hc, hsub]
    refine .bind (Q := Tells id [] a) ?_ fun a₁ h₁ => hsegues a₁ _ h₁
    split
    · exact absurd ‹_› (hrespond _)
    · exact Tells.performSegue hid _
    · exact .ok (.refl hid)
    · exact .error _ _

end

end App

/-! ## What the history says was reported -/

/-- The message a deed shows on controller `j`. -/
def reported (taps : List Tap) (j : Nat) : Nat × Deed → Option String
  | (i, .ui (.showError message)) =>
      if taps[i]?.map Tap.self = some j then some message else none
  | _ => none

theorem filterMap_reported_deeds {taps : List Tap} {i : Nat} {t : Tap} (ht : taps[i]? = some t)
    (j : Nat) (eff : Effects) :
    ((Device.deeds eff).map (i, ·)).filterMap (reported taps j) =
      if t.self = j then (messagesOf eff.ui).reverse else [] := by
  have hrequest : ((eff.request.map Deed.request).toList.map (i, ·)).filterMap (reported taps j) =
      [] := by
    cases eff.request <;> rfl
  rw [Device.deeds, List.map_append, List.filterMap_append, hrequest, List.append_nil,
    List.map_map, List.filterMap_map]
  by_cases hself : t.self = j
  · rw [if_pos hself, messagesOf, ← List.filterMap_reverse]
    refine List.filterMap_congr fun e _ => ?_
    cases e with
    | showError message =>
        refine if_pos ?_
        rw [ht, ← hself]
        rfl
    | _ => rfl
  · rw [if_neg hself, List.filterMap_eq_nil_iff]
    intro e _
    cases e with
    | showError message =>
        refine if_neg fun h => hself ?_
        rw [ht] at h
        exact Option.some.inj h
    | _ => rfl

namespace Device

/-- The messages reported on controller `j`, the newest first. -/
def reports (d : Device) (j : Nat) : List String := d.history.filterMap (reported d.taps j)

section

variable {d : Device} {eff : Effects}

theorem reports_tapped (hl : Lives d) (self : Nat) (inv : Invocation) (j : Nat) :
    (d.tapped self inv eff).reports j =
      (if self = j then (messagesOf eff.ui).reverse else []) ++ d.reports j := by
  have hnew : (d.tapped self inv eff).taps[d.taps.length]? =
      some (Tap.mk self inv d.currentUser) := List.getElem?_concat_length
  show ((deeds eff).map (d.taps.length, ·) ++ d.history).filterMap _ = _
  rw [List.filterMap_append, filterMap_reported_deeds hnew]
  congr 1
  refine List.filterMap_congr fun p hp => ?_
  obtain ⟨t, ht⟩ := hl.exists_tap_of_mem hp
  have hsame : (d.tapped self inv eff).taps[p.1]? = d.taps[p.1]? :=
    List.getElem?_append_left (List.getElem?_eq_some_iff.mp ht).1
  unfold reported
  split
  · rw [hsame]
  · rfl

theorem reports_resumed {i : Nat} {t : Tap} (ht : d.taps[i]? = some t) (r : Request)
    (a : Answer) (j : Nat) :
    (d.resumed i r a eff).reports j =
      (if t.self = j then (messagesOf eff.ui).reverse else []) ++ d.reports j := by
  show ((deeds eff).map (i, ·) ++ (i, .delivered r a) :: d.history).filterMap
    (reported d.taps j) = _
  rw [List.filterMap_append, filterMap_reported_deeds ht]
  rfl

end

end Device

/-! ## Typing -/

/-- What an event types or picks on the screen in front, if it is one that
can. -/
def Controller.edited (c : Controller) : App.Event → Option Controller
  | .type field text => c.type text field
  | .pickImage editedImage => c.didFinishPicking editedImage
  | _ => none

def Controller.edit (c : Controller) (e : App.Event) : Controller := (c.edited e).getD c

theorem Controller.form_edited {c c' : Controller} {e : App.Event} (h : c.edited e = some c') :
    c'.form = c.form.edit e := by
  cases e with
  | type field text =>
      change c.type text field = some c' at h
      cases c <;> cases field <;> cases h <;> rfl
  | pickImage editedImage =>
      change c.didFinishPicking editedImage = some c' at h
      cases c <;> cases editedImage <;> cases h <;> rfl
  | _ => cases h

theorem Controller.scene_edited {c c' : Controller} {e : App.Event} (h : c.edited e = some c') :
    c'.scene = c.scene := by
  cases e with
  | type field text => exact App.Controller.scene_type h
  | pickImage editedImage => exact App.Controller.scene_didFinishPicking h
  | _ => cases h

theorem Controller.errorLabel_edited {c c' : Controller} {e : App.Event}
    (h : c.edited e = some c') : c'.errorLabel = c.errorLabel := by
  cases e with
  | type field text =>
      change c.type text field = some c' at h
      cases c <;> cases field <;> cases h <;> rfl
  | pickImage editedImage =>
      change c.didFinishPicking editedImage = some c' at h
      cases c <;> cases editedImage <;> cases h <;> rfl
  | _ => cases h

namespace App

/-- Is something typed or picked? -/
def Event.isEdit : Event → Bool
  | .type _ _ | .pickImage _ => true
  | _ => false

section

variable {a a' : App} {e : Event}

/-- What one event does to the screens: something is typed on the one in front,
or a controller runs and reports what it puts on record. -/
inductive Sheets (a : App) (e : Event) (a' : App) : Prop
  | edit {id : Nat} {c c' : Controller} : e.isEdit = true → a.shown = some id →
      a.controllers[id]? = some c → c.edited e = some c' → a' = a.update id c' → Sheets a e a'
  | told {id : Nat} {messages : List String} : e.isEdit = false → Tells id messages a a' →
      (∀ j, a'.device.reports j =
        (if id = j then messages.reverse else []) ++ a.device.reports j) → Sheets a e a'

theorem sheets_of_next (ha : Sound a) (h : a.next e = some a') : Sheets a e a' := by
  have hstep := step_of_next h
  obtain ⟨id, c, hid, hc⟩ := ha.exists_shown
  have hlt := (List.getElem?_eq_some_iff.mp hc).1
  -- an event that writes on no screen and reports nothing
  have hquiet : e.isEdit = false → a'.controllers = a.controllers →
      (∀ j, a'.device.reports j = a.device.reports j) → Sheets a e a' := by
    intro he hcontrollers hreports
    refine .told he ((Tells.refl hlt).of_controllers rfl hcontrollers) fun j => ?_
    rw [hreports j, List.reverse_nil, ite_self]
    rfl
  cases e with
  | tap b =>
      obtain ⟨id', c', hid', hc', hscene, htouch⟩ := step_tap ha hstep
      have hq : b.scene ≠ .q1 := by
        intro hq
        have hmem := ha.mem_presented (shownController_eq hid' hc')
        rw [hscene, hq] at hmem
        exact ha.unasked.1 hmem
      refine .told rfl (tells_touch hc' hscene hq a' htouch.symm) fun j => ?_
      obtain ⟨id'', c'', hid'', hshown, ⟨hsub, hdevice⟩ | ⟨inv, eff, hsub, heff, hdevice⟩⟩ :=
        (survives_of_next ha h).tap_device ha
      · rw [shownController_eq hid' hc'] at hshown
        cases hshown
        rw [hsub, hdevice, Option.elim_none, List.reverse_nil, ite_self]
        rfl
      · rw [shownController_eq hid' hc'] at hshown
        rw [hid'] at hid''
        cases hshown
        cases hid''
        rw [hsub, hdevice, Device.reports_tapped ha.lives, Option.elim_some, Invocation.reports,
          heff]
  | type field text =>
      rw [step, hid, shownController_eq hid hc] at hstep
      obtain ⟨c', hc', heq⟩ := Option.map_eq_some_iff.mp hstep
      cases heq
      exact .edit rfl hid hc hc' rfl
  | pickImage editedImage =>
      rw [step, hid, shownController_eq hid hc] at hstep
      obtain ⟨c', hc', heq⟩ := Option.map_eq_some_iff.mp hstep
      cases heq
      exact .edit rfl hid hc hc' rfl
  | tapGoogle =>
      rw [step] at hstep
      split at hstep
      · cases hstep
        exact hquiet rfl rfl fun _ => rfl
      · cases hstep
  | googleSignIn user =>
      rw [step] at hstep
      split at hstep
      · cases hsign : AppDelegate.sign user with
        | error t => rw [hsign] at hstep; cases hstep
        | ok line =>
            rw [hsign] at hstep
            cases hstep
            exact hquiet rfl rfl fun _ => rfl
      · cases hstep
  | serve i ans =>
      obtain ⟨d, hnext, heq, -⟩ := spec_serve hstep
      cases heq
      refine hquiet rfl rfl fun j => ?_
      show d.reports j = _
      cases Device.step_of_next hnext with
      | serve _ _ _ => rfl
  | deliver i =>
      obtain ⟨req, ans, eff, hcall, -, hnext, heq⟩ := step_deliver hstep
      obtain ⟨t, ht⟩ := ha.lives.exists_tap hcall
      have ht' : (a.device.resumed i req ans eff).taps[i]? = some t := ht
      have hself : t.self < a.controllers.length := by
        have hscene := ha.taps t (List.mem_of_getElem? ht)
        simpa using (List.getElem?_eq_some_iff.mp hscene).1
      have hdevice : a'.device = a.device.resumed i req ans eff := by
        have hrun := (survives_of_next ha h).device
        change run Device.next a.device [.deliver i] = some a'.device at hrun
        rw [run_cons, hnext] at hrun
        exact (Option.some.inj hrun).symm
      rw [refresh_some ht'] at heq
      refine .told rfl ((Tells.effects (a := a.withDevice (a.device.resumed i req ans eff)) hself
        eff.ui a' heq.symm).of_controllers rfl rfl) fun j => ?_
      rw [hdevice, Device.reports_resumed ht]
  | announce =>
      obtain ⟨d, hnext, heq, -⟩ := spec_announce hstep
      cases heq
      refine hquiet rfl rfl fun j => ?_
      show d.reports j = _
      cases Device.step_of_next hnext with
      | announce _ => rfl
  | auth user =>
      cases hstep
      exact hquiet rfl rfl fun _ => rfl

end

end App

end Pompeius
