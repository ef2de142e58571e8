import Mathlib.Data.List.Basic
import Pompeius.Lib.Regex

/-!
# What a match is, and that the matcher finds it

`Matches r k k'` is the judgment the matcher decides: reading from `k`, the
expression can stop at `k'`. It knows no order among the ways and no budget; a
repetition goes round as often as it likes, and a round that reads nothing is
as good as any.

The matcher refuses such rounds and counts the others. It loses nothing by
either, since a match reads a piece of the subject (`Matches.reads`), so one
that does not move the position is back where it began, and one that does has
less left to read. That is all there is to `mem_stops`.

What follows are the matches of each construct, and of the two composites met
in practice: a class repeated, and a class sought somewhere ahead.
-/

namespace Pompeius.Lib

/-- From `k` to `k'` one reads exactly the text `read`. -/
structure Cursor.Reads (k : Cursor) (read : List Char) (k' : Cursor) : Prop where
  rest : k.rest = read ++ k'.rest
  pos : k'.pos = k.pos + read.length

namespace Cursor.Reads

variable {k k' k'' : Cursor} {read read' : List Char}

theorem refl (k : Cursor) : k.Reads [] k := ⟨rfl, rfl⟩

theorem trans (h : k.Reads read k') (h' : k'.Reads read' k'') :
    k.Reads (read ++ read') k'' where
  rest := by rw [h.rest, h'.rest, List.append_assoc]
  pos := by rw [h'.pos, h.pos, List.length_append, Nat.add_assoc]

/-- Reading nothing is staying. -/
theorem eq_of_not_lt (h : k.Reads read k') (hpos : ¬ k.pos < k'.pos) : k' = k := by
  have hlen : read.length = 0 := by
    have := h.pos
    omega
  obtain rfl := List.length_eq_zero_iff.mp hlen
  cases k
  cases k'
  rw [Cursor.mk.injEq]
  exact ⟨h.pos, h.rest.symm⟩

theorem length_lt (h : k.Reads read k') (hpos : k.pos < k'.pos) :
    k'.rest.length < k.rest.length := by
  have hp := h.pos
  rw [h.rest, List.length_append]
  omega

/-- The subject from its start to its end. -/
theorem whole (s : List Char) : Cursor.Reads ⟨0, s⟩ s ⟨s.length, []⟩ :=
  ⟨(List.append_nil s).symm, (Nat.zero_add _).symm⟩

end Cursor.Reads

namespace Regex

inductive Matches : Regex → Cursor → Cursor → Prop
  | bol {k : Cursor} : k.pos = 0 → Matches .bol k k
  | cls {p : Char → Bool} {c : Char} {pos : Nat} {rest : List Char} : p c = true →
      Matches (.cls p) ⟨pos, c :: rest⟩ ⟨pos + 1, rest⟩
  | seq {a b : Regex} {k k' k'' : Cursor} : Matches a k k' → Matches b k' k'' →
      Matches (.seq a b) k k''
  | look {a : Regex} {k k' : Cursor} : Matches a k k' → Matches (.look a) k k
  /-- No round is owed any more. -/
  | done {a : Regex} {k : Cursor} : Matches (.rep 0 a) k k
  | round {lo : Nat} {a : Regex} {k k' k'' : Cursor} : Matches a k k' →
      Matches (.rep (lo - 1) a) k' k'' → Matches (.rep lo a) k k''

variable {r a b : Regex} {k k' : Cursor} {p q : Char → Bool}

theorem Matches.reads (h : Matches r k k') : ∃ read, k.Reads read k' := by
  induction h with
  | bol _ => exact ⟨[], .refl _⟩
  | @cls p c pos rest _ => exact ⟨[c], rfl, rfl⟩
  | seq _ _ iha ihb =>
      obtain ⟨read, hread⟩ := iha
      obtain ⟨read', hread'⟩ := ihb
      exact ⟨read ++ read', hread.trans hread'⟩
  | look _ _ => exact ⟨[], .refl _⟩
  | done => exact ⟨[], .refl _⟩
  | round _ _ iha ihb =>
      obtain ⟨read, hread⟩ := iha
      obtain ⟨read', hread'⟩ := ihb
      exact ⟨read ++ read', hread.trans hread'⟩

/-! ## The matcher stops only at matches -/

theorem matches_of_mem_more (ha : ∀ k k', k' ∈ a.stops k → Matches a k k') {fuel : Nat}
    (h : k' ∈ more a.stops fuel k) : Matches (.rep 0 a) k k' := by
  induction fuel generalizing k with
  | zero =>
      rw [more, List.mem_singleton] at h
      rw [h]
      exact .done
  | succ fuel ih =>
      rw [more, List.mem_append, List.mem_flatMap, List.mem_singleton] at h
      rcases h with ⟨k₁, hk₁, hk'⟩ | rfl
      · exact .round (ha k k₁ (List.mem_filter.mp hk₁).1) (ih hk')
      · exact .done

theorem matches_of_mem_rounds (ha : ∀ k k', k' ∈ a.stops k → Matches a k k') {lo : Nat}
    (h : k' ∈ rounds a.stops lo k) : Matches (.rep lo a) k k' := by
  induction lo generalizing k with
  | zero => exact matches_of_mem_more ha h
  | succ lo ih =>
      obtain ⟨k₁, hk₁, hk'⟩ := List.mem_flatMap.mp h
      exact .round (ha k k₁ hk₁) (ih hk')

theorem matches_of_mem_stops (h : k' ∈ r.stops k) : Matches r k k' := by
  induction r generalizing k k' with
  | bol =>
      rw [stops] at h
      split at h
      · rename_i hpos
        rw [List.mem_singleton.mp h]
        exact .bol hpos
      · cases h
  | cls p =>
      obtain ⟨pos, rest⟩ := k
      cases rest with
      | nil => cases h
      | cons c rest =>
          change k' ∈ (if p c = true then [⟨pos + 1, rest⟩] else []) at h
          split at h
          · rename_i hp
            rw [List.mem_singleton.mp h]
            exact .cls hp
          · cases h
  | seq a b iha ihb =>
      obtain ⟨k₁, hk₁, hk'⟩ := List.mem_flatMap.mp h
      exact .seq (iha hk₁) (ihb hk')
  | look a iha =>
      rw [stops] at h
      split at h
      · cases h
      · rename_i hne
        rw [List.mem_singleton.mp h]
        obtain ⟨k₁, hk₁⟩ := List.exists_mem_of_ne_nil _ (by simpa using hne)
        exact .look (iha hk₁)
  | rep lo a iha => exact matches_of_mem_rounds (fun _ _ => iha) h

/-! ## The matcher finds every match -/

theorem mem_more_self (body : Cursor → List Cursor) (fuel : Nat) (k : Cursor) :
    k ∈ more body fuel k := by
  cases fuel with
  | zero => exact List.mem_singleton_self k
  | succ fuel => exact List.mem_append_right _ (List.mem_singleton_self k)

/-- A round that makes progress, and a tail that had fuel to spare. -/
theorem mem_more_succ {body : Cursor → List Cursor} {fuel : Nat} {k₁ : Cursor}
    (hround : k₁ ∈ body k) (hpos : k.pos < k₁.pos) (htail : k' ∈ more body fuel k₁) :
    k' ∈ more body (fuel + 1) k := by
  refine List.mem_append_left _ (List.mem_flatMap.mpr ⟨k₁, ?_, htail⟩)
  exact List.mem_filter.mpr ⟨hround, decide_eq_true hpos⟩

theorem mem_more_mono {body : Cursor → List Cursor} {n m : Nat} (hle : n ≤ m)
    (h : k' ∈ more body n k) : k' ∈ more body m k := by
  induction n generalizing k m with
  | zero =>
      rw [List.mem_singleton.mp h]
      exact mem_more_self body m k
  | succ n ih =>
      obtain ⟨m, rfl⟩ : ∃ m', m = m' + 1 := ⟨m - 1, by omega⟩
      rw [more, List.mem_append, List.mem_flatMap, List.mem_singleton] at h
      rcases h with ⟨k₁, hk₁, hk'⟩ | rfl
      · obtain ⟨hround, hpos⟩ := List.mem_filter.mp hk₁
        exact mem_more_succ hround (of_decide_eq_true hpos) (ih (by omega) hk')
      · exact mem_more_self body _ k'

theorem mem_stops_of_matches (h : Matches r k k') : k' ∈ r.stops k := by
  induction h with
  | bol hpos =>
      rw [stops, if_pos hpos]
      exact List.mem_singleton_self _
  | @cls p c pos rest hp =>
      show _ ∈ (if p c = true then [_] else [])
      rw [if_pos hp]
      exact List.mem_singleton_self _
  | seq _ _ iha ihb => exact List.mem_flatMap.mpr ⟨_, iha, ihb⟩
  | look _ iha =>
      rw [stops, if_neg (by simpa using List.ne_nil_of_mem iha)]
      exact List.mem_singleton_self _
  | done => exact mem_more_self _ _ _
  | @round lo a k k₁ k' hround _ ihround ihtail =>
      cases lo with
      | succ lo => exact List.mem_flatMap.mpr ⟨k₁, ihround, ihtail⟩
      | zero =>
          obtain ⟨read, hread⟩ := hround.reads
          by_cases hpos : k.pos < k₁.pos
          · have hlen := hread.length_lt hpos
            have hmore := mem_more_succ ihround hpos ihtail
            exact mem_more_mono (by omega) hmore
          · rw [hread.eq_of_not_lt hpos] at ihtail
            exact ihtail

/-- The matcher stops exactly where the expression can. -/
theorem mem_stops : k' ∈ r.stops k ↔ Matches r k k' :=
  ⟨matches_of_mem_stops, mem_stops_of_matches⟩

theorem fullMatch_iff {s : List Char} :
    r.fullMatch s = true ↔ ∃ k, Matches r ⟨0, s⟩ k ∧ k.rest = [] := by
  rw [fullMatch, List.any_eq_true]
  refine exists_congr fun k => ?_
  rw [mem_stops, List.isEmpty_iff]

/-! ## The matches of each construct -/

theorem matches_bol : Matches .bol k k' ↔ k.pos = 0 ∧ k' = k := by
  constructor
  · intro h
    cases h with
    | bol hpos => exact ⟨hpos, rfl⟩
  · rintro ⟨hpos, rfl⟩
    exact .bol hpos

theorem matches_seq : Matches (.seq a b) k k' ↔ ∃ k₁, Matches a k k₁ ∧ Matches b k₁ k' := by
  constructor
  · intro h
    cases h with
    | seq ha hb => exact ⟨_, ha, hb⟩
  · rintro ⟨k₁, ha, hb⟩
    exact .seq ha hb

theorem matches_look : Matches (.look a) k k' ↔ (∃ k₁, Matches a k k₁) ∧ k' = k := by
  constructor
  · intro h
    cases h with
    | look ha => exact ⟨⟨_, ha⟩, rfl⟩
  · rintro ⟨⟨k₁, ha⟩, rfl⟩
    exact .look ha

theorem matches_cls : Matches (.cls p) k k' ↔ ∃ c, p c = true ∧ k.Reads [c] k' := by
  constructor
  · intro h
    cases h with
    | cls hp => exact ⟨_, hp, rfl, rfl⟩
  · rintro ⟨c, hp, hrest, hpos⟩
    obtain ⟨pos, rest⟩ := k
    obtain ⟨pos', rest'⟩ := k'
    change rest = c :: rest' at hrest
    change pos' = pos + 1 at hpos
    rw [hrest, hpos]
    exact .cls hp

/-- A class repeated reads a text of the class that is long enough. -/
theorem matches_rep_cls {lo : Nat} : Matches (.rep lo (.cls p)) k k' ↔
    ∃ read, k.Reads read k' ∧ lo ≤ read.length ∧ ∀ c ∈ read, p c = true := by
  constructor
  · intro h
    generalize hr : Regex.rep lo (.cls p) = r at h
    induction h generalizing lo with
    | done =>
        cases hr
        exact ⟨[], .refl _, Nat.le_refl 0, fun c hc => nomatch hc⟩
    | round hround _ _ ih =>
        cases hr
        obtain ⟨c, hp, hread⟩ := matches_cls.mp hround
        obtain ⟨read, hread', hlen, hall⟩ := ih rfl
        refine ⟨c :: read, hread.trans hread', ?_, ?_⟩
        · rw [List.length_cons]
          omega
        · exact List.forall_mem_cons.mpr ⟨hp, hall⟩
    | _ => cases hr
  · rintro ⟨read, hread, hlen, hall⟩
    induction read generalizing k lo with
    | nil =>
        obtain rfl := Nat.le_zero.mp hlen
        rw [hread.eq_of_not_lt (by rw [hread.pos]; exact Nat.lt_irrefl _)]
        exact .done
    | cons c read ih =>
        have hfirst : k.Reads [c] ⟨k.pos + 1, read ++ k'.rest⟩ := ⟨hread.rest, rfl⟩
        have hrest : Cursor.Reads ⟨k.pos + 1, read ++ k'.rest⟩ read k' := by
          refine ⟨rfl, ?_⟩
          rw [hread.pos, List.length_cons, Nat.add_assoc, Nat.add_comm 1]
        rw [List.length_cons] at hlen
        obtain ⟨hp, hall⟩ := List.forall_mem_cons.mp hall
        exact .round (matches_cls.mpr ⟨c, hp, hfirst⟩) (ih hrest (by omega) hall)

/-- `p*q` goes through from here when a `q` comes after nothing but `p`. -/
theorem matches_seek : (∃ k', Matches (.seq (.rep 0 (.cls p)) (.cls q)) k k') ↔
    ∃ before c after, k.rest = before ++ c :: after ∧ (∀ x ∈ before, p x = true) ∧
      q c = true := by
  constructor
  · rintro ⟨k', h⟩
    obtain ⟨k₁, hrep, hcls⟩ := matches_seq.mp h
    obtain ⟨before, hbefore, -, hall⟩ := matches_rep_cls.mp hrep
    obtain ⟨c, hq, hc⟩ := matches_cls.mp hcls
    exact ⟨before, c, k'.rest, hbefore.rest.trans (congrArg (before ++ ·) hc.rest), hall, hq⟩
  · rintro ⟨before, c, after, hrest, hall, hq⟩
    have hbefore : k.Reads before ⟨k.pos + before.length, c :: after⟩ := ⟨hrest, rfl⟩
    refine ⟨⟨k.pos + before.length + 1, after⟩, matches_seq.mpr ⟨_, ?_, .cls hq⟩⟩
    exact matches_rep_cls.mpr ⟨before, hbefore, Nat.zero_le _, hall⟩

/-- Where everything ahead is a `p`, it is enough that some of it is a `q`. -/
theorem matches_seek_of_forall (hp : ∀ c ∈ k.rest, p c = true) :
    (∃ k', Matches (.seq (.rep 0 (.cls p)) (.cls q)) k k') ↔ ∃ c ∈ k.rest, q c = true := by
  rw [matches_seek]
  constructor
  · rintro ⟨before, c, after, hrest, -, hq⟩
    refine ⟨c, ?_, hq⟩
    rw [hrest]
    exact List.mem_append_right _ List.mem_cons_self
  · rintro ⟨c, hc, hq⟩
    obtain ⟨before, after, hrest⟩ := List.append_of_mem hc
    refine ⟨before, c, after, hrest, fun x hx => hp x ?_, hq⟩
    rw [hrest]
    exact List.mem_append_left _ hx

end Regex

end Pompeius.Lib
