import Pompeius.Proofs.StoragePath

/-!
# The two spellings of a path

A path leaves the SDK as a `gs://` URI (`stringValue`) or inside a download URL,
and `pathFromString` reads both. The URI is written without any escaping and
read by a scanner, so it comes back as the same path only when the bucket and
the object give the scanner nothing to pass over and nothing to stop at:
`ReadsBack` is that condition and there is no other.

A download URL escapes the object, slashes included, and the reader decodes the
whole path before it cuts it. An object comes back whatever it is named, given
that its name is not of slashes alone (`pathFromString_downloadURL`); the bucket
is not escaped, and that is where the one condition lies.
-/

namespace Pompeius

open Lib

/-! ## The `gs://` spelling -/

/-- Begins with something a scanner does not pass over. -/
def Visible (l : List Char) : Prop :=
  ∃ c rest, l = c :: rest ∧ whitespacesAndNewlines c = false

theorem Visible.dropWhile {l : List Char} (h : Visible l) (m : List Char) :
    (l ++ m).dropWhile whitespacesAndNewlines = l ++ m := by
  obtain ⟨c, rest, rfl, hc⟩ := h
  rw [List.cons_append, List.dropWhile_cons_of_neg (by rw [hc]; exact Bool.false_ne_true)]

theorem visible_dropWhile (l : List Char) :
    l.dropWhile whitespacesAndNewlines = [] ∨ Visible (l.dropWhile whitespacesAndNewlines) := by
  induction l with
  | nil => exact .inl rfl
  | cons c l ih =>
      cases hc : whitespacesAndNewlines c with
      | true => rwa [List.dropWhile_cons_of_pos hc]
      | false =>
          rw [List.dropWhile_cons_of_neg (by rw [hc]; exact Bool.false_ne_true)]
          exact .inr ⟨c, l, rfl, hc⟩

theorem Visible.takeWhile {l : List Char} {p : Char → Bool} (h : Visible l)
    (hne : l.takeWhile p ≠ []) : Visible (l.takeWhile p) := by
  obtain ⟨c, rest, rfl, hc⟩ := h
  rw [List.takeWhile_cons] at hne ⊢
  split at hne
  · rename_i hp
    rw [if_pos hp]
    exact ⟨c, _, rfl, hc⟩
  · exact absurd rfl hne

namespace NSScanner

/-- What a scan up to a character has found. -/
def upTo (scanner : NSScanner) (stop : Char) : List Char :=
  (scanner.dropWhile whitespacesAndNewlines).takeWhile (· ≠ stop)

theorem scanUpTo_eq (scanner : NSScanner) (stop : Char) :
    scanner.scanUpTo stop =
      if scanner.upTo stop = [] then (none, scanner)
      else (some (String.ofList (scanner.upTo stop)),
        (scanner.dropWhile whitespacesAndNewlines).dropWhile (· ≠ stop)) := by
  have hcut : (scanner.dropWhile whitespacesAndNewlines).takeWhile (· ≠ stop) =
      scanner.upTo stop := rfl
  dsimp only [scanUpTo]
  rw [hcut]
  split
  · rename_i h
    rw [if_pos h]
  · rename_i h
    rw [if_neg h]

theorem upTo_sublist (scanner : NSScanner) (stop : Char) :
    (scanner.upTo stop).Sublist (scanner.dropWhile whitespacesAndNewlines) :=
  (List.takeWhile_prefix _).sublist

theorem not_mem_upTo (scanner : NSScanner) (stop : Char) : stop ∉ scanner.upTo stop := by
  intro hmem
  have hp := List.mem_takeWhile_imp hmem
  simp at hp

theorem visible_upTo {scanner : NSScanner} {stop : Char} (h : scanner.upTo stop ≠ []) :
    Visible (scanner.upTo stop) := by
  rcases visible_dropWhile scanner with hnil | hvis
  · unfold upTo at h
    rw [hnil] at h
    exact absurd rfl h
  · exact hvis.takeWhile h

/-- A visible text without the character is scanned whole. -/
theorem upTo_append {l : List Char} {stop : Char} (hvis : Visible l) (hstop : stop ∉ l)
    {m : List Char} (hm : m = [] ∨ ∃ m', m = stop :: m') : upTo (l ++ m) stop = l := by
  have hall : ∀ c ∈ l, decide (c ≠ stop) = true := fun c hc =>
    decide_eq_true fun heq => hstop (heq ▸ hc)
  unfold upTo
  rw [hvis.dropWhile, List.takeWhile_append_of_pos hall]
  rcases hm with rfl | ⟨m', rfl⟩
  · exact List.append_nil l
  · rw [List.takeWhile_cons_of_neg (by simp), List.append_nil]

theorem scanString_append {string : List Char} (hvis : Visible string) (rest : List Char) :
    scanString (string ++ rest) string = (true, rest) := by
  have hpre : (string.map foldCase).isPrefixOf ((string ++ rest).map foldCase) = true := by
    rw [List.map_append]
    exact List.isPrefixOf_iff_prefix.mpr (List.prefix_append _ _)
  unfold scanString
  simp only [hvis.dropWhile, hpre, if_true, List.drop_left]

end NSScanner

namespace FIRStoragePath

theorem toList_stringValue (p : FIRStoragePath) :
    p.stringValue.toList =
      "gs://".toList ++ (p.bucket.toList ++ '/' :: (p.object.getD "").toList) := by
  unfold stringValue
  rw [String.toList_append, String.toList_append, String.toList_append, List.append_assoc,
    List.append_assoc]
  rfl

theorem pathFromString_gs {uri : String} {text : List Char}
    (huri : uri.toList = "gs://".toList ++ text) : pathFromString uri = pathFromGSURI uri := by
  unfold pathFromString
  rw [if_pos]
  rw [huri]
  exact List.isPrefixOf_iff_prefix.mpr (List.prefix_append _ _)

theorem pathFromGSURI_eq {uri : String} {text : List Char}
    (huri : uri.toList = "gs://".toList ++ text) :
    pathFromGSURI uri =
      match NSScanner.scanUpTo text '/' with
      | (some bucketName, scanner) =>
          .ok (initWithBucket bucketName ((scanner.scanString ['/']).2.scanUpTo '\n').1)
      | (none, _) =>
          .error ⟨"NSInternalInconsistencyException",
            "URI must be in the form of gs://<bucket>/<path/to/object>"⟩ := by
  have hscheme : NSScanner.scanString uri.toList "gs://".toList = (true, text) := by
    rw [huri]
    exact NSScanner.scanString_append ⟨'g', _, rfl, by decide⟩ text
  unfold pathFromGSURI
  simp only [hscheme]
  cases NSScanner.scanUpTo text '/' with
  | mk bucketName scanner =>
      cases bucketName with
      | none => rfl
      | some bucketName => rfl

/-- The bucket is what stands before the first slash. -/
theorem bucket_of_pathFromGSURI {uri : String} {text : List Char} {q : FIRStoragePath}
    (huri : uri.toList = "gs://".toList ++ text) (h : pathFromGSURI uri = .ok q) :
    q.bucket.toList = NSScanner.upTo text '/' ∧ NSScanner.upTo text '/' ≠ [] := by
  rw [pathFromGSURI_eq huri, NSScanner.scanUpTo_eq] at h
  by_cases hnil : NSScanner.upTo text '/' = []
  · rw [if_pos hnil] at h
    cases h
  · rw [if_neg hnil] at h
    cases h
    exact ⟨String.toList_ofList, hnil⟩

/-- With a bucket in order, the object is what stands on the rest of the line. -/
theorem pathFromGSURI_of_visible {uri : String} {b o : List Char}
    (huri : uri.toList = "gs://".toList ++ (b ++ '/' :: o)) (hvis : Visible b)
    (hslash : '/' ∉ b) :
    pathFromGSURI uri =
      .ok (initWithBucket (String.ofList b)
        (if NSScanner.upTo o '\n' = [] then none
         else some (String.ofList (NSScanner.upTo o '\n')))) := by
  have hb : NSScanner.upTo (b ++ '/' :: o) '/' = b :=
    NSScanner.upTo_append hvis hslash (.inr ⟨o, rfl⟩)
  have hne : b ≠ [] := by
    obtain ⟨c, rest, rfl, -⟩ := hvis
    exact List.cons_ne_nil c rest
  have hrest : (b ++ '/' :: o).dropWhile (· ≠ '/') = '/' :: o := by
    have hall : ∀ c ∈ b, decide (c ≠ '/') = true := fun c hc =>
      decide_eq_true fun heq => hslash (heq ▸ hc)
    rw [List.dropWhile_append_of_pos hall]
    exact List.dropWhile_cons_of_neg (by simp)
  rw [pathFromGSURI_eq huri, NSScanner.scanUpTo_eq, hb, if_neg hne, hvis.dropWhile, hrest]
  show Except.ok (initWithBucket _ ((NSScanner.scanString (['/'] ++ o) ['/']).2.scanUpTo '\n').1) = _
  rw [NSScanner.scanString_append ⟨'/', [], rfl, by decide⟩, NSScanner.scanUpTo_eq]
  split <;> rfl

/-- When the `gs://` spelling of a path is read as that path. -/
structure ReadsBack (p : FIRStoragePath) : Prop where
  bucket_visible : Visible p.bucket.toList
  bucket_slash : '/' ∉ p.bucket.toList
  object_visible : ∀ object, p.object = some object → Visible object.toList
  object_newline : ∀ object, p.object = some object → '\n' ∉ object.toList

/-- Reading an object can only lose characters, and where it loses none there was
nothing to pass over and nothing to cut off. -/
theorem upTo_eq_of_standardized {object : String}
    (h : (if NSScanner.upTo object.toList '\n' = [] then none
        else some (String.ofList (NSScanner.upTo object.toList '\n'))).map
      standardizedPathForString = some object) :
    NSScanner.upTo object.toList '\n' = object.toList ∧
      NSScanner.upTo object.toList '\n' ≠ [] := by
  by_cases hnil : NSScanner.upTo object.toList '\n' = []
  · rw [if_pos hnil] at h
    cases h
  · rw [if_neg hnil, Option.map_some, Option.some.injEq] at h
    have hsub : object.toList.Sublist (NSScanner.upTo object.toList '\n') := by
      have hnorm := congrArg String.toList h
      rw [toList_standardizedPathForString, String.toList_ofList] at hnorm
      rw [← hnorm]
      exact hnorm.symm ▸ normalize_sublist _
    have hback : (NSScanner.upTo object.toList '\n').Sublist object.toList :=
      (NSScanner.upTo_sublist _ _).trans (List.dropWhile_suffix _).sublist
    exact ⟨hback.antisymm hsub, hnil⟩

theorem pathFromString_stringValue_iff (p : FIRStoragePath) :
    pathFromString p.stringValue = .ok p ↔ p.ReadsBack := by
  have hspell := toList_stringValue p
  rw [pathFromString_gs hspell]
  constructor
  · intro h
    obtain ⟨hbucket, hne⟩ := bucket_of_pathFromGSURI hspell h
    have hvis : Visible p.bucket.toList := by
      rw [hbucket]
      exact NSScanner.visible_upTo hne
    have hslash : '/' ∉ p.bucket.toList := by
      rw [hbucket]
      exact NSScanner.not_mem_upTo _ _
    rw [pathFromGSURI_of_visible hspell hvis hslash] at h
    have hobject := congrArg FIRStoragePath.object (Except.ok.inj h)
    have hread : ∀ object, p.object = some object →
        NSScanner.upTo object.toList '\n' = object.toList ∧
          NSScanner.upTo object.toList '\n' ≠ [] := by
      intro object hsome
      rw [hsome] at hobject
      exact upTo_eq_of_standardized hobject
    refine ⟨hvis, hslash, fun object hsome => ?_, fun object hsome => ?_⟩
    · obtain ⟨heq, hne'⟩ := hread object hsome
      exact heq ▸ NSScanner.visible_upTo hne'
    · exact (hread object hsome).1 ▸ NSScanner.not_mem_upTo _ _
  · intro h
    rw [pathFromGSURI_of_visible hspell h.bucket_visible h.bucket_slash, String.ofList_toList]
    refine congrArg Except.ok (FIRStoragePath.ext rfl ?_)
    refine Eq.trans (congrArg (Option.map standardizedPathForString) ?_) p.standardized
    cases hobject : p.object with
    | none => rfl
    | some object =>
        have hvis := h.object_visible object hobject
        have hread : NSScanner.upTo object.toList '\n' = object.toList := by
          have := NSScanner.upTo_append hvis (h.object_newline object hobject) (.inl rfl)
          rwa [List.append_nil] at this
        obtain ⟨c, rest, hcons, -⟩ := hvis
        show (if NSScanner.upTo object.toList '\n' = [] then _ else _) = _
        rw [hread, if_neg (by rw [hcons]; exact List.cons_ne_nil c rest), Option.getD_some, hread,
          String.ofList_toList]

/-- A whole bucket, spelled the way a program names its own. -/
theorem pathFromGSURI_bucket {bucket : String} (hvis : Visible bucket.toList)
    (hslash : '/' ∉ bucket.toList) :
    pathFromGSURI ("gs://" ++ bucket) = .ok (initWithBucket bucket none) := by
  have hscan : NSScanner.upTo bucket.toList '/' = bucket.toList := by
    have := NSScanner.upTo_append hvis hslash (.inl rfl)
    rwa [List.append_nil] at this
  have hrest : bucket.toList.dropWhile (· ≠ '/') = [] :=
    List.dropWhile_eq_nil_iff.mpr fun c hc => decide_eq_true fun heq => hslash (heq ▸ hc)
  have hskip := hvis.dropWhile []
  rw [List.append_nil] at hskip
  obtain ⟨c, rest, hcons, -⟩ := hvis
  rw [pathFromGSURI_eq String.toList_append, NSScanner.scanUpTo_eq, hscan,
    if_neg (by rw [hcons]; exact List.cons_ne_nil c rest), hskip, hrest, String.ofList_toList]
  rfl

end FIRStoragePath

/-! ## URLs -/

/-- A check of every letter of a text, run over the text. To decide a statement
about all letters is to go through the whole of `Char`. -/
theorem forall_mem_of_all {P : Char → Prop} [DecidablePred P] {l : List Char}
    (h : l.all (fun c => decide (P c)) = true) : ∀ c ∈ l, P c :=
  fun c hc => of_decide_eq_true (List.all_eq_true.mp h c hc)

theorem isURLText_cons {c : Char} (hc : c ≠ '%') (l : List Char) :
    isURLText (c :: l) = (isURLCharacter c && isURLText l) := by
  rw [isURLText]
  exact fun _ _ _ hpct => absurd hpct hc

theorem ne_percent_of_isURLCharacter {c : Char} (h : isURLCharacter c = true) : c ≠ '%' := by
  rintro rfl
  exact absurd h (by decide)

theorem isURLText_append {l : List Char} (hl : ∀ c ∈ l, isURLCharacter c = true)
    (m : List Char) : isURLText (l ++ m) = isURLText m := by
  induction l with
  | nil => rfl
  | cons c l ih =>
      rw [List.forall_mem_cons] at hl
      rw [List.cons_append, isURLText_cons (ne_percent_of_isURLCharacter hl.1), hl.1,
        Bool.true_and, ih hl.2]

/-- What is escaped may stand in a URL. -/
theorem isURLText_escape {allowed : Char → Bool}
    (hallowed : ∀ c, allowed c = true → isURLCharacter c = true) (s : String) (m : List Char) :
    isURLText (escape allowed s ++ m) = isURLText m := by
  unfold escape
  induction s.toByteArray.data.toList with
  | nil => rfl
  | cons b bs ih =>
      rw [List.flatMap_cons, List.append_assoc, ← ih]
      unfold escapeByte
      split
      · rename_i ha
        rw [List.singleton_append, isURLText_cons (ne_percent_of_isURLCharacter (hallowed _ ha)),
          hallowed _ ha, Bool.true_and]
      · have hb := b.toNat_lt
        show ((hexValue? _).isSome && (hexValue? _).isSome && isURLText _) = _
        rw [hexValue?_hexDigit _ (by omega), hexValue?_hexDigit _ (Nat.mod_lt _ (by omega))]
        rfl

theorem gcsObjectAllowed_percent : gcsObjectAllowed '%' = false := by
  decide

/-- What cuts a URL does not occur in an escaped name. -/
theorem not_mem_gcsEscape {c : Char} (hc : c ∈ ['/', '?', '#']) (s : String) :
    c ∉ escape gcsObjectAllowed s := by
  have hcut : ∀ c ∈ ['/', '?', '#'],
      gcsObjectAllowed c = false ∧ c ≠ '%' ∧ c ∉ "0123456789ABCDEF".toList :=
    forall_mem_of_all (by decide +kernel)
  obtain ⟨hallowed, hpct, hhex⟩ := hcut c hc
  exact not_mem_escape hallowed hpct hhex s

theorem isURLCharacter_of_gcsObjectAllowed {c : Char} (h : gcsObjectAllowed c = true) :
    isURLCharacter c = true := by
  have hsub : ∀ c ∈ ("ABCDEFGHIJKLMNOPQRSTUVWXYZabcdefghijklmnopqrstuvwxyz0123456789" ++
      "-._~!$'()*,=:@").toList, isURLCharacter c = true :=
    forall_mem_of_all (by decide +kernel)
  exact hsub c (List.contains_iff_mem.mp h)

theorem ascii_of_isURLCharacter {c : Char} (h : isURLCharacter c = true) : c.toNat < 0x80 := by
  unfold isURLCharacter at h
  rcases Bool.or_eq_true_iff.mp h with halnum | hmark
  · have hranges : ((decide (c.val ≥ 'A'.val ∧ c.val ≤ 'Z'.val) ||
        (decide (c.val ≥ 'a'.val) && decide (c.val ≤ 'z'.val))) ||
        (decide (c.val ≥ '0'.val) && decide (c.val ≤ '9'.val))) = true := halnum
    simp only [Bool.or_eq_true, Bool.and_eq_true, decide_eq_true_eq, ge_iff_le,
      UInt32.le_iff_toNat_le] at hranges
    have hZ : 'Z'.val.toNat = 0x5A := rfl
    have hz : 'z'.val.toNat = 0x7A := rfl
    have h9 : '9'.val.toNat = 0x39 := rfl
    show c.val.toNat < 0x80
    omega
  · have hall : ∀ c ∈ "-._~:/?@!$&'()*+,;=".toList, c.toNat < 0x80 :=
      forall_mem_of_all (by decide +kernel)
    exact hall c (List.contains_iff_mem.mp hmark)

/-- A URL with a path and a query, read. -/
theorem URLWithString_of_query {s : String} {host path query : List Char}
    (hs : s.toList = "https://".toList ++ (host ++ ('/' :: path ++ '?' :: query)))
    (htext : isURLText s.toList = true) (hfragment : '#' ∉ s.toList)
    (hhost : ∀ c ∈ host, c ≠ '/' ∧ c ≠ '?' ∧ c ≠ '@' ∧ c ≠ ':') (hpath : '?' ∉ path) :
    NSURL.URLWithString s =
      some { host := String.ofList host, percentEncodedPath := '/' :: path } := by
  have hhier : (s.toList.dropWhile (· ≠ ':')).drop 3 = host ++ ('/' :: path ++ '?' :: query) := by
    rw [hs]
    rfl
  have hauthority : (host ++ ('/' :: path ++ '?' :: query)).takeWhile
      (fun c => decide (c ≠ '/' ∧ c ≠ '?')) = host := by
    rw [List.takeWhile_append_of_pos fun c hc => decide_eq_true ⟨(hhost c hc).1, (hhost c hc).2.1⟩]
    exact List.append_nil host
  have haddress : (host.splitOn '@').getLastD [] = host := by
    rw [List.splitOn_eq_singleton fun hat => (hhost _ hat).2.2.1 rfl]
    rfl
  have hport : host.takeWhile (· ≠ ':') = host :=
    List.takeWhile_eq_self_iff.mpr fun c hc => decide_eq_true (hhost c hc).2.2.2
  have hcut : ('/' :: path ++ '?' :: query).takeWhile (· ≠ '?') = '/' :: path := by
    have hall : ∀ c ∈ '/' :: path, decide (c ≠ '?') = true :=
      List.forall_mem_cons.mpr ⟨by decide, fun c hc => decide_eq_true fun heq => hpath (heq ▸ hc)⟩
    rw [List.takeWhile_append_of_pos hall, List.takeWhile_cons_of_neg (by simp), List.append_nil]
  unfold NSURL.URLWithString
  rw [List.splitOn_eq_singleton hfragment]
  simp only [htext, hhier, hauthority, haddress, hport, List.drop_left, hcut]
  rfl

theorem pathNames_object {bucket name : String} (hbucket : IsName bucket) :
    pathNames ("/v0/b/" ++ bucket ++ "/o/" ++ name) =
      ["v0", "b", bucket, "o"] ++ pathNames name := by
  have hslashes : "/v0/b/" ++ bucket ++ "/o/" ++ name =
      "" ++ ("/" ++ ("v0" ++ ("/" ++ ("b" ++ ("/" ++
        (bucket ++ ("/" ++ ("o" ++ ("/" ++ name))))))))) := by
    refine String.toList_inj.mp ?_
    simp only [String.toList_append, List.append_assoc]
    rfl
  rw [hslashes]
  simp only [pathNames_append_slash, hbucket.pathNames]
  rfl

/-- The path of an object's URL, cut into components. -/
theorem pathComponents_of_object {url : NSURL} {bucket name : String}
    (hpath : unescape url.percentEncodedPath =
      some ("/v0/b/" ++ bucket ++ "/o/" ++ name)) (hbucket : IsName bucket) :
    ∃ last : List String, (last = [] ∨ last = ["/"]) ∧ url.pathComponents =
      some (["/", "v0", "b", bucket, "o"] ++ (pathNames name ++ last)) := by
  have hhead : ("/v0/b/" ++ bucket ++ "/o/" ++ name).toList.head? = some '/' := by
    simp only [String.toList_append, List.append_assoc]
    rfl
  unfold NSURL.pathComponents
  rw [hpath, Option.map_some, if_pos hhead, pathNames_object hbucket]
  refine ⟨_, ?_, congrArg some (List.append_assoc _ _ _)⟩
  split
  · exact .inr rfl
  · exact .inl rfl

namespace FIRStoragePath

/-- The URL of an object is read as its path. -/
theorem pathFromHTTPURL_of_object {s bucket name : String} {url : NSURL}
    (hurl : NSURL.URLWithString s = some url) (hhost : url.host = kFIRStorageHost)
    (hpath : unescape url.percentEncodedPath = some ("/v0/b/" ++ bucket ++ "/o/" ++ name))
    (hbucket : IsName bucket) (hname : pathNames name ≠ []) :
    pathFromHTTPURL s = .ok (initWithBucket bucket (some name)) := by
  obtain ⟨last, hlast, hcomponents⟩ := pathComponents_of_object hpath hbucket
  have hnames : pathNames ("/".intercalate (pathNames name ++ last)) = pathNames name := by
    rw [pathNames_intercalate, List.flatMap_append, flatMap_pathNames fun _ => isName_of_mem]
    rcases hlast with rfl | rfl
    · exact List.append_nil _
    · exact List.append_nil _
  have hjoined : "/".intercalate (pathNames name ++ last) ≠ "" := by
    intro h
    rw [h] at hnames
    exact hname hnames.symm
  have hobject : initWithBucket bucket (some ("/".intercalate (pathNames name ++ last))) =
      initWithBucket bucket (some name) := by
    refine ext_names rfl ?_
    rw [names_initWithBucket, names_initWithBucket, Option.map_some, Option.map_some, hnames]
  have hlength : 5 < (["/", "v0", "b", bucket, "o"] ++ (pathNames name ++ last)).length := by
    have := List.length_pos_of_ne_nil hname
    simp only [List.length_append, List.length_cons, List.length_nil]
    omega
  have hbefore : 3 < (["/", "v0", "b", bucket, "o"] ++ (pathNames name ++ last)).length :=
    Nat.lt_trans (by decide) hlength
  unfold pathFromHTTPURL
  simp only [hurl, Option.bind_some, hcomponents, Option.getD_some, Option.map_some, hhost,
    hlength, hbefore, and_true, if_true]
  show (if bucket.length = 0 then _ else Except.ok (initWithBucket bucket
    (if ("/".intercalate (pathNames name ++ last)).length = 0 then none
     else some ("/".intercalate (pathNames name ++ last))))) = _
  rw [if_neg fun h => hbucket.2 (String.length_eq_zero_iff.mp h),
    if_neg fun h => hjoined (String.length_eq_zero_iff.mp h), hobject]

end FIRStoragePath

/-- A bucket that can stand in a URL as it is. -/
structure PlainBucket (bucket : String) : Prop where
  ne_empty : bucket ≠ ""
  plain : ∀ c ∈ bucket.toList, isURLCharacter c = true ∧ c ≠ '/' ∧ c ≠ '?'

theorem PlainBucket.isName {bucket : String} (h : PlainBucket bucket) : IsName bucket :=
  ⟨fun hmem => (h.plain _ hmem).2.1 rfl, h.ne_empty⟩

namespace FIRStoragePath

/-- What a download URL is made of, taken apart again. -/
theorem pathFromString_of_token {s bucket name : String} {token : List Char}
    (hs : s.toList = "https://firebasestorage.googleapis.com/v0/b/".toList ++ (bucket.toList ++
      ("/o/".toList ++ (escape gcsObjectAllowed name ++
        ("?alt=media&token=".toList ++ token)))))
    (hbucket : PlainBucket bucket) (hname : pathNames name ≠ [])
    (htoken : isURLText token = true) (hnumber : '#' ∉ token) :
    pathFromString s = .ok (initWithBucket bucket (some name)) := by
  have hescape : ∀ c, gcsObjectAllowed c = true → isURLCharacter c = true :=
    fun _ => isURLCharacter_of_gcsObjectAllowed
  have htext : isURLText s.toList = true := by
    rw [hs, isURLText_append (forall_mem_of_all (by decide +kernel)),
      isURLText_append fun c hc => (hbucket.plain c hc).1,
      isURLText_append (forall_mem_of_all (by decide +kernel)), isURLText_escape hescape,
      isURLText_append (forall_mem_of_all (by decide +kernel))]
    exact htoken
  have hfragment : '#' ∉ s.toList := by
    have hplain : '#' ∉ bucket.toList := fun hmem => absurd (hbucket.plain _ hmem).1 (by decide)
    rw [hs]
    simp only [List.mem_append, not_or]
    exact ⟨by decide +kernel, hplain, by decide +kernel, not_mem_gcsEscape (by decide) name,
      by decide +kernel, hnumber⟩
  have hquery : '?' ∉ "v0/b/".toList ++ (bucket.toList ++ ("/o/".toList ++
      escape gcsObjectAllowed name)) := by
    simp only [List.mem_append, not_or]
    exact ⟨by decide, fun hmem => (hbucket.plain _ hmem).2.2 rfl, by decide,
      not_mem_gcsEscape (by decide) name⟩
  have hcut : s.toList = "https://".toList ++ (kFIRStorageHost.toList ++
      ('/' :: ("v0/b/".toList ++ (bucket.toList ++ ("/o/".toList ++
        escape gcsObjectAllowed name))) ++ '?' :: ("alt=media&token=".toList ++ token))) := by
    rw [hs, List.cons_append, List.append_assoc, List.append_assoc, List.append_assoc]
    rfl
  have hurl := URLWithString_of_query hcut htext hfragment
    (forall_mem_of_all (by decide +kernel)) hquery
  have hpercent : '%' ∉ "/v0/b/".toList ++ (bucket.toList ++ "/o/".toList) := by
    have hplain : '%' ∉ bucket.toList := fun hmem => absurd (hbucket.plain _ hmem).1 (by decide)
    simp only [List.mem_append, not_or]
    exact ⟨by decide, hplain, by decide⟩
  have hread := unescape_append_escape gcsObjectAllowed_percent
    (fun c h => ascii_of_isURLCharacter (hescape c h)) hpercent name
  have hhttps : pathFromString s = pathFromHTTPURL s := by
    unfold pathFromString
    rw [if_neg, if_pos]
    · right
      rw [hcut]
      exact List.isPrefixOf_iff_prefix.mpr (List.prefix_append _ _)
    · rw [hcut]
      exact Bool.false_ne_true
  rw [hhttps]
  refine pathFromHTTPURL_of_object hurl String.ofList_toList ?_ hbucket.isName hname
  show unescape ('/' :: ("v0/b/".toList ++ (bucket.toList ++ ("/o/".toList ++
    escape gcsObjectAllowed name)))) = _
  rw [List.append_assoc, List.append_assoc] at hread
  refine hread.trans (congrArg some ?_)
  refine String.toList_inj.mp ?_
  simp only [String.toList_append, String.toList_ofList, List.append_assoc]

theorem isURLText_queryValue (token : String) :
    isURLText (escape queryValueAllowed token) = true ∧ '#' ∉ escape queryValueAllowed token := by
  have hplain : ∀ c, queryValueAllowed c = true → isURLCharacter c = true := by
    intro c hc
    unfold queryValueAllowed at hc
    rw [Bool.and_eq_true, Bool.and_eq_true] at hc
    exact hc.1.1
  have htext := isURLText_escape hplain token []
  rw [List.append_nil] at htext
  exact ⟨htext, not_mem_escape (by decide) (by decide) (by decide +kernel) token⟩

/-- In a bucket whose name can stand in a URL as it is, an object's download URL
leads back to the path of the object, whatever its tokens and whatever its name,
as long as there is something in it besides slashes. -/
theorem pathFromString_downloadURL {bucket name s : String} {downloadTokens : Option String}
    (hbucket : PlainBucket bucket) (hname : pathNames name ≠ [])
    (hs : downloadURLFromMetadataDictionary ⟨bucket, name, downloadTokens⟩ = some s) :
    pathFromString s = .ok (initWithBucket bucket (some name)) := by
  have hspell : ∃ tokens, s = downloadURLOf bucket name tokens := by
    unfold downloadURLFromMetadataDictionary at hs
    split at hs
    · split at hs
      · exact ⟨_, (Option.some.inj hs).symm⟩
      · cases hs
    · cases hs
  obtain ⟨tokens, rfl⟩ := hspell
  obtain ⟨htext, hnumber⟩ := isURLText_queryValue ((componentsSeparated tokens ',').headD "")
  exact pathFromString_of_token (toList_downloadURLOf bucket name tokens) hbucket hname htext
    hnumber

/-- An object with a doubled slash in its name, which was given two tokens. -/
theorem pathFromString_downloadURL_doubled :
    ∃ s, downloadURLFromMetadataDictionary ⟨"pompeius", "profiles//ada", some "t1,t2"⟩ = some s ∧
      pathFromString s = .ok (initWithBucket "pompeius" (some "profiles//ada")) := by
  have hbucket : PlainBucket "pompeius" := ⟨by decide, forall_mem_of_all (by decide +kernel)⟩
  have hurl : downloadURLFromMetadataDictionary ⟨"pompeius", "profiles//ada", some "t1,t2"⟩ =
      some _ := rfl
  exact ⟨_, hurl, pathFromString_downloadURL hbucket (by decide +kernel) hurl⟩

end FIRStoragePath

/-! ## Requests -/

namespace FIRStorageUtils

/-- The requests about two paths go to different places, and a path without an
object is not taken for one whose object has no name. -/
theorem encodedURLForPath_eq_iff (p q : FIRStoragePath) :
    encodedURLForPath p = encodedURLForPath q ↔ p = q := by
  refine ⟨fun h => ?_, fun h => congrArg encodedURLForPath h⟩
  have hslash : ∀ s, '/' ∉ escape gcsObjectAllowed s := not_mem_gcsEscape (by decide)
  have hspell : ∀ p : FIRStoragePath, (encodedURLForPath p).toList = "/v0/b/".toList ++
      (escape gcsObjectAllowed p.bucket ++ '/' :: 'o' :: (p.object.map fun object =>
        '/' :: escape gcsObjectAllowed object).getD []) := by
    intro p
    have hroot : ∀ t, stringByAppendingPathComponent "/" t = "/" ++ t := fun _ => rfl
    unfold encodedURLForPath GCSEscapedString
    cases p.object with
    | none =>
        simp only [hroot, Option.map_none, String.toList_append, String.toList_ofList,
          List.append_assoc]
        rfl
    | some object =>
        simp only [hroot, Option.map_some, String.toList_append, String.toList_ofList,
          List.append_assoc]
        rfl
  have hlist := congrArg String.toList h
  rw [hspell, hspell] at hlist
  have htail := List.append_cancel_left hlist
  have hbucket := append_cons_inj_left (hslash _) (hslash _) htail
  rw [hbucket] at htail
  have hobject := List.append_cancel_left htail
  refine FIRStoragePath.ext (escape_inj gcsObjectAllowed_percent hbucket) ?_
  simp only [List.cons.injEq, true_and] at hobject
  cases hp : p.object with
  | none =>
      cases hq : q.object with
      | none => rfl
      | some object =>
          rw [hp, hq] at hobject
          cases hobject
  | some object =>
      cases hq : q.object with
      | none =>
          rw [hp, hq] at hobject
          cases hobject
      | some object' =>
          rw [hp, hq] at hobject
          exact congrArg some (escape_inj gcsObjectAllowed_percent (List.cons.inj hobject).2)

end FIRStorageUtils

end Pompeius
