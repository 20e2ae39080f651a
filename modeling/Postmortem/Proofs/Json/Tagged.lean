import Postmortem.Proofs.Json.Rearrangement

/-!
# Tagged records that follow a schema

The members of a tagged record are held before the fields of its kind are read, so that the tag may
stand anywhere. Holding takes a record apart into the tag and the members around it if there is just
one tag; whatever follows is up to the kind.
-/

namespace Postmortem.Json

open Schema (Kept)

variable {α : Type} {tagName : String} {kinds : List (Kind α)} {tagOf : α → String}
  {members : α → List (String × Json)} {levels : Nat} {s : Setting}

/-! ## Kinds -/

/-- A kind that reads held members which have the structure of a schema. -/
structure Kind.Follows (kind : Kind α) (tagOf : α → String) (members : α → List (String × Json))
    (fs : List (String × Schema)) : Prop where
  ofMembers_rearranged : ∀ {levels : Nat} {v : α} {kept others ms : List (String × Json)},
    tagOf v = kind.tag → Kept fs (members v) kept → (∀ m ∈ others, m.1 ∉ fs.map (·.1)) →
    ms.Perm (kept ++ others) → (∀ m ∈ ms, Within levels m.2) →
    kind.ofMembers (draftMembers ms) = .ok v
  not_repeats : ∀ {levels : Nat} {v : α} {ms : List (String × Json)},
    (∀ m ∈ ms, Within levels m.2) → kind.ofMembers (draftMembers ms) = .ok v →
    ¬ (Schema.record fs).Repeats (.object ms)
  isAnswer_ofMembers : ∀ {levels : Nat} {ms : List (String × Json)},
    (∀ m ∈ ms, Within levels m.2) → ¬ (Schema.record fs).IllPlaced true (.object ms) →
    IsAnswer (kind.ofMembers (draftMembers ms))
  isAnswer_ofItems : ∀ {levels : Nat} {js : List Json}, (∀ j ∈ js, Within levels j) →
    ¬ (Schema.record fs).IllPlaced true (.list js) → IsAnswer (kind.ofItems (draftItems js))

/-- A kind with fields follows their schema. -/
theorem Kind.follows_record {αs : List Type} {tag : String} {fields : Fields αs}
    {ofValues : Values αs → α} {fs : List (String × Schema)} (hfields : fields.Follow fs)
    (hvalues : ∀ v, tagOf v = tag → ∃ vs, ofValues vs = v ∧ members v = fields.encode vs) :
    (Kind.record tag fields ofValues).Follows tagOf members fs where
  ofMembers_rearranged {levels v kept others ms} htag hkept hothers hperm hwithin := by
    obtain ⟨vs, rfl, hmembers⟩ := hvalues v htag
    rw [hmembers] at hkept
    have hheld : Setting.held.Admits levels := trivial
    exact map_eq_ok_iff.mpr
      ⟨vs, Fields.ofMembers_rearranged hfields hheld hkept hothers hperm hwithin, rfl⟩
  not_repeats {levels v ms} hwithin hread := by
    have hheld : Setting.held.Admits levels := trivial
    obtain ⟨vs, hvs, -⟩ := map_eq_ok_iff.mp hread
    exact Fields.not_repeats_of_ofMembers hfields hheld hwithin hvs
  isAnswer_ofMembers {levels ms} hwithin hplaced := by
    have hheld : Setting.held.Admits levels := trivial
    exact (Fields.isAnswer_ofMembers hfields hheld hwithin hplaced).map ofValues
  isAnswer_ofItems {levels js} hwithin hplaced := by
    have hheld : Setting.held.Admits levels := trivial
    exact (Fields.isAnswer_ofItems hfields hheld hwithin hplaced).map ofValues

/-- A kind without fields takes any members. -/
theorem Kind.follows_unit {tag : String} {v : α} (hvalue : ∀ w, tagOf w = tag → v = w) :
    (Kind.unit tag v).Follows tagOf members [] where
  ofMembers_rearranged htag _ _ _ _ := congrArg Except.ok (hvalue _ htag)
  not_repeats _ _ h := by
    cases h with
    | field hfield => exact absurd hfield List.not_mem_nil
    | within hfield => exact absurd hfield List.not_mem_nil
  isAnswer_ofMembers _ _ := isAnswer_ok v
  isAnswer_ofItems {levels js} _ _ := by
    cases js with
    | nil => exact isAnswer_ok v
    | cons j js => exact isAnswer_mismatch

/-- Kinds with the schemas that they follow. They have different tags. -/
inductive Kind.AllFollow (tagOf : α → String) (members : α → List (String × Json)) :
    List (Kind α) → List (String × List (String × Schema)) → Prop where
  | nil : AllFollow tagOf members [] []
  | cons {kind : Kind α} {kinds : List (Kind α)} {fs : List (String × Schema)}
      {es : List (String × List (String × Schema))} (hkind : kind.Follows tagOf members fs)
      (htag : kind.tag ∉ es.map (·.1)) (hrest : AllFollow tagOf members kinds es) :
      AllFollow tagOf members (kind :: kinds) ((kind.tag, fs) :: es)

namespace Kind

variable {es : List (String × List (String × Schema))}

/-- The first kind is the one of its tag. -/
theorem named_cons_self (kind : Kind α) (kinds : List (Kind α)) :
    named (kind :: kinds) kind.tag = .ok kind := by
  simp [named]

/-- A kind of another tag is further behind. -/
theorem named_cons_of_ne {kind : Kind α} {name : String} (h : kind.tag ≠ name)
    (kinds : List (Kind α)) : named (kind :: kinds) name = named kinds name := by
  simp [named, h]

/-- The kind of a schema is found by its tag. -/
theorem AllFollow.exists_named (h : AllFollow tagOf members kinds es) {name : String}
    {fs : List (String × Schema)} (hmem : (name, fs) ∈ es) :
    ∃ kind, named kinds name = .ok kind ∧ kind.tag = name ∧ kind.Follows tagOf members fs := by
  induction h with
  | nil => exact absurd hmem List.not_mem_nil
  | @cons kind kinds _ es hkind htag _ ih =>
    rcases List.mem_cons.mp hmem with heq | hmem
    · cases heq
      exact ⟨kind, named_cons_self kind kinds, rfl, hkind⟩
    · have hne : kind.tag ≠ name := fun heq => htag (heq ▸ List.mem_map.mpr ⟨_, hmem, rfl⟩)
      rw [named_cons_of_ne hne]
      exact ih hmem

/-- A kind that is found has a schema. -/
theorem AllFollow.exists_schema (h : AllFollow tagOf members kinds es) {name : String}
    {kind : Kind α} (hnamed : named kinds name = .ok kind) :
    ∃ fs, (name, fs) ∈ es ∧ kind.Follows tagOf members fs := by
  induction h with
  | nil => cases hnamed
  | @cons first kinds fs es hkind _ _ ih =>
    by_cases hname : first.tag = name
    · subst hname
      rw [named_cons_self] at hnamed
      cases hnamed
      exact ⟨fs, List.mem_cons_self, hkind⟩
    · rw [named_cons_of_ne hname] at hnamed
      obtain ⟨fs', hmem, hfollows⟩ := ih hnamed
      exact ⟨fs', List.mem_cons_of_mem _ hmem, hfollows⟩

/-- A tag is that of a kind, or it is a mismatch. -/
theorem isAnswer_named (kinds : List (Kind α)) (name : String) : IsAnswer (named kinds name) := by
  rw [named]
  split
  · exact isAnswer_ok _
  · exact isAnswer_mismatch

/-! ## Holding members -/

/-- A member that is not the tag is held. -/
theorem holdMembers_cons_of_ne (hs : s.Admits levels) {m : String × Json}
    (hwithin : Within levels m.2) (hname : m.1 ≠ tagName) (found : Option (Kind α))
    (rest : List (Name × Draft)) (ms : List (String × Json)) :
    holdMembers tagName kinds s found rest (draftMembers (m :: ms)) =
      holdMembers tagName kinds s found ((.literal (.ofString m.1), m.2.draft) :: rest)
        (draftMembers ms) := by
  show (if m.1 == tagName then _ else _) = _
  rw [if_neg (by simpa using hname)]
  cases s with
  | held => rfl
  | direct depth =>
    show (m.2.draft.hold depth).bind _ = _
    rw [hwithin.holds depth hs]
    rfl

/-- The tag tells the kind of all members. -/
theorem holdMembers_cons_self (j : Json) (rest : List (Name × Draft))
    (ms : List (String × Json)) :
    holdMembers tagName kinds s none rest (draftMembers ((tagName, j) :: ms)) =
      (Codec.text.decode s j.draft).bind fun name =>
        (named kinds name).bind fun kind =>
          holdMembers tagName kinds s (some kind) rest (draftMembers ms) := by
  show (if tagName == tagName then _ else _) = _
  rw [if_pos (beq_self_eq_true tagName)]
  rfl

/-- A second tag is a mismatch. -/
theorem holdMembers_again (kind : Kind α) (j : Json) (rest : List (Name × Draft))
    (ms : List (String × Json)) :
    holdMembers tagName kinds s (some kind) rest (draftMembers ((tagName, j) :: ms)) =
      .error .mismatch := by
  show (if tagName == tagName then _ else _) = _
  rw [if_pos (beq_self_eq_true tagName)]
  rfl

/-- Once the kind is known, there must be no other tag. -/
theorem ne_of_holdMembers (hs : s.Admits levels) {kind : Kind α} {ms : List (String × Json)}
    (hwithin : ∀ m ∈ ms, Within levels m.2) {rest : List (Name × Draft)}
    {r : Option (Kind α) × List (Name × Draft)}
    (h : holdMembers tagName kinds s (some kind) rest (draftMembers ms) = .ok r) :
    ∀ m ∈ ms, m.1 ≠ tagName := by
  induction ms generalizing rest with
  | nil => exact fun m hm => absurd hm List.not_mem_nil
  | cons m ms ih =>
    obtain ⟨hhead, htail⟩ := List.forall_mem_cons.mp hwithin
    obtain ⟨k, j⟩ := m
    by_cases hname : k = tagName
    · rw [hname, holdMembers_again] at h
      cases h
    · rw [holdMembers_cons_of_ne hs hhead hname] at h
      exact List.forall_mem_cons.mpr ⟨hname, ih htail h⟩

/-- **Holding takes a record apart**: into its only tag and the members around it. -/
theorem holdMembers_eq_ok_iff (hs : s.Admits levels) {kind : Kind α} {ms : List (String × Json)}
    (hwithin : ∀ m ∈ ms, Within levels m.2) {rest held : List (Name × Draft)} :
    holdMembers tagName kinds s none rest (draftMembers ms) = .ok (some kind, held) ↔
      ∃ pre name post, ms = pre ++ (tagName, .text name) :: post ∧
        (∀ m ∈ pre ++ post, m.1 ≠ tagName) ∧ named kinds name = .ok kind ∧
        held = rest.reverse ++ draftMembers (pre ++ post) := by
  induction ms generalizing rest with
  | nil =>
    constructor
    · rintro ⟨⟩
    · rintro ⟨pre, name, post, hsplit, -⟩
      exact absurd hsplit (by simp)
  | cons m ms ih =>
    obtain ⟨hhead, htail⟩ := List.forall_mem_cons.mp hwithin
    obtain ⟨k, j⟩ := m
    by_cases hname : k = tagName
    · subst hname
      rw [holdMembers_cons_self]
      constructor
      · intro h
        obtain ⟨name, hread, h⟩ := bind_eq_ok_iff.mp h
        obtain ⟨kind', hnamed, h⟩ := bind_eq_ok_iff.mp h
        have hnames := ne_of_holdMembers hs htail h
        rw [holdMembers_found hs kind' hnames fun m hm => (htail m hm).holds] at h
        cases h
        have htext : j = .text name := Codec.eq_text_of_decode hhead hread
        subst htext
        exact ⟨[], name, ms, rfl, hnames, hnamed, rfl⟩
      · rintro ⟨pre, name, post, hsplit, hnames, hnamed, rfl⟩
        cases pre with
        | nil =>
          cases hsplit
          refine bind_eq_ok_iff.mpr ⟨name, rfl, bind_eq_ok_iff.mpr ⟨kind, hnamed, ?_⟩⟩
          exact holdMembers_found hs kind hnames (fun m hm => (htail m hm).holds) rest
        | cons m pre =>
          cases hsplit
          exact absurd rfl (hnames _ List.mem_cons_self)
    · rw [holdMembers_cons_of_ne hs hhead hname, ih htail]
      constructor
      · rintro ⟨pre, name, post, rfl, hnames, hnamed, rfl⟩
        refine ⟨(k, j) :: pre, name, post, rfl, ?_, hnamed, ?_⟩
        · exact List.forall_mem_cons.mpr ⟨hname, hnames⟩
        · simp [draftMembers]
      · rintro ⟨pre, name, post, hsplit, hnames, hnamed, rfl⟩
        cases pre with
        | nil =>
          cases hsplit
          exact absurd rfl hname
        | cons m pre =>
          cases hsplit
          refine ⟨pre, name, post, rfl, (List.forall_mem_cons.mp hnames).2, hnamed, ?_⟩
          simp [draftMembers]

/-- Holding gives an answer. -/
theorem isAnswer_holdMembers (hs : s.Admits levels) {ms : List (String × Json)}
    (hwithin : ∀ m ∈ ms, Within levels m.2) (found : Option (Kind α))
    (rest : List (Name × Draft)) :
    IsAnswer (holdMembers tagName kinds s found rest (draftMembers ms)) := by
  induction ms generalizing found rest with
  | nil => exact isAnswer_ok (found, rest.reverse)
  | cons m ms ih =>
    obtain ⟨hhead, htail⟩ := List.forall_mem_cons.mp hwithin
    obtain ⟨k, j⟩ := m
    by_cases hname : k = tagName
    · subst hname
      cases found with
      | some kind =>
        rw [holdMembers_again]
        exact isAnswer_mismatch
      | none =>
        have htag : IsAnswer (Codec.text.decode s j.draft) := Codec.isAnswer_text hhead
        rw [holdMembers_cons_self]
        exact htag.bind fun name _ => (isAnswer_named kinds name).bind fun kind _ =>
          ih htail (some kind) rest
    · rw [holdMembers_cons_of_ne hs hhead hname]
      exact ih htail found _

end Kind

/-! ## Tagged records -/

namespace Codec

variable {es : List (String × List (String × Schema))}

/-- A tagged record is held, and then its kind reads it. -/
theorem decode_tagged (s : Setting) (ms : List (String × Json)) :
    (tagged tagName kinds tagOf members).decode s (object ms).draft =
      s.enter.bind fun s' =>
        (Kind.holdMembers tagName kinds s' none [] (draftMembers ms)).bind fun found =>
          found.1.elim (.error .mismatch) fun kind => kind.ofMembers found.2 := by
  rw [draft]
  show s.enter.bind _ = _
  cases s.enter with
  | error f => rfl
  | ok s' =>
    show (Kind.holdMembers tagName kinds s' none [] (draftMembers ms)).bind _ =
      (Kind.holdMembers tagName kinds s' none [] (draftMembers ms)).bind _
    congr 1
    funext found
    obtain ⟨kind, held⟩ := found
    cases kind <;> rfl

/-- Given as a list, it begins with the tag. -/
theorem decode_tagged_list (hs : s.Admits (levels + 1)) {j : Json} {js : List Json}
    (hwithin : ∀ j ∈ js, Within levels j) :
    (tagged tagName kinds tagOf members).decode s (Json.list (j :: js)).draft =
      s.enter.bind fun s' =>
        (text.decode s' j.draft).bind fun name =>
          (Kind.named kinds name).bind fun kind => kind.ofItems (draftItems js) := by
  obtain ⟨s', henter, hs'⟩ := hs.enter
  have hholds : ∀ j ∈ js, Holds levels j := fun j hj => (hwithin j hj).holds
  rw [draft, draftItems, henter]
  show s.enter.bind _ = _
  rw [henter]
  show (text.decode s' j.draft).bind _ = (text.decode s' j.draft).bind _
  congr 1
  funext name
  show (Kind.named kinds name).bind _ = _
  congr 1
  funext kind
  cases s' with
  | held => rfl
  | direct depth =>
    show (Draft.holdItems depth (draftItems js)).bind _ = _
    rw [holdItems_draftItems hs' hholds]
    rfl

/-- The members around one are as moderate as all of them. -/
theorem within_append_cons {m : String × Json} {pre post : List (String × Json)}
    (h : ∀ m' ∈ pre ++ m :: post, Within levels m'.2) : ∀ m' ∈ pre ++ post, Within levels m'.2 :=
  fun m' hm' => h m' (List.perm_middle.mem_iff.mpr (List.mem_cons_of_mem m hm'))

/-- A member without a field does not make a record repeat one. -/
theorem repeats_of_append_cons {fs : List (String × Schema)} {m : String × Json}
    {pre post : List (String × Json)} (hname : m.1 ∉ fs.map (·.1))
    (h : (Schema.record fs).Repeats (.object (pre ++ m :: post))) :
    (Schema.record fs).Repeats (.object (pre ++ post)) := by
  have hperm : (pre ++ m :: post).Perm (m :: (pre ++ post)) := List.perm_middle
  cases h with
  | field hfield hcount =>
    rw [(hperm.map _).count_eq, List.map_cons, List.count_cons_of_ne] at hcount
    · exact .field hfield hcount
    · exact fun heq => hname (heq ▸ hfield)
  | within hfield hm hvalue =>
    rcases List.mem_cons.mp (hperm.mem_iff.mp hm) with rfl | hm
    · exact absurd (List.mem_map.mpr ⟨_, hfield, rfl⟩) hname
    · exact .within hfield hm hvalue

/-- The members around the tag are as well placed as all of them. -/
theorem illPlaced_append_cons {fs : List (String × Schema)} {held : Bool} {m : String × Json}
    {pre post : List (String × Json)} (hname : m.1 ∉ fs.map (·.1))
    (h : (Schema.record fs).IllPlaced held (.object (pre ++ post))) :
    (Schema.record fs).IllPlaced held (.object (pre ++ m :: post)) := by
  cases h with
  | @field _ _ k _ _ _ hfield hfirst hvalue =>
    have hne : (k == m.1) = false := by
      rw [beq_eq_false_iff_ne]
      rintro rfl
      exact hname (List.mem_map.mpr ⟨_, hfield, rfl⟩)
    refine .field hfield ?_ hvalue
    rw [List.lookup_append] at hfirst ⊢
    rw [List.lookup_cons, hne]
    exact hfirst

/-- A rearranged record is taken apart into its tag and the rest, which is rearranged too. -/
theorem decode_tagged_rearranged (hkinds : Kind.AllFollow tagOf members kinds es)
    (htags : ∀ e ∈ es, tagName ∉ e.2.map (·.1)) (hs : s.Admits (levels + 1)) {v : α}
    {fs : List (String × Schema)} {ms kept others : List (String × Json)}
    (hwithin : ∀ m ∈ ms, Within levels m.2) (hkind : (tagOf v, fs) ∈ es)
    (hkept : Kept fs (members v) kept)
    (hothers : ∀ m ∈ others, m.1 ≠ tagName ∧ m.1 ∉ fs.map (·.1))
    (hperm : ms.Perm ((tagName, .text (tagOf v)) :: (kept ++ others))) :
    (tagged tagName kinds tagOf members).decode s (object ms).draft = .ok v := by
  obtain ⟨s', henter, hs'⟩ := hs.enter
  obtain ⟨kind, hnamed, htag, hfollows⟩ := hkinds.exists_named hkind
  obtain ⟨pre, post, rfl⟩ := List.append_of_mem (hperm.mem_iff.mpr List.mem_cons_self)
  have hrest : (pre ++ post).Perm (kept ++ others) := (List.perm_middle.symm.trans hperm).cons_inv
  have hnames : ∀ m ∈ pre ++ post, m.1 ≠ tagName := by
    intro m hm
    rcases List.mem_append.mp (hrest.mem_iff.mp hm) with hm | hm
    · exact fun heq => htags _ hkind (heq ▸ (hkept.name_mem hm).1)
    · exact (hothers m hm).1
  have hheld : Kind.holdMembers tagName kinds s' none [] (draftMembers _) =
      .ok (some kind, draftMembers (pre ++ post)) :=
    (Kind.holdMembers_eq_ok_iff hs' hwithin).mpr ⟨pre, _, post, rfl, hnames, hnamed, rfl⟩
  have hread := hfollows.ofMembers_rearranged htag.symm hkept (fun m hm => (hothers m hm).2) hrest
    (within_append_cons hwithin)
  rw [decode_tagged]
  exact bind_eq_ok_iff.mpr ⟨s', henter, bind_eq_ok_iff.mpr ⟨_, hheld, hread⟩⟩

/-- Neither the tag of a record that is read is repeated, nor a field of its kind. -/
theorem not_repeats_of_decode_tagged (hkinds : Kind.AllFollow tagOf members kinds es)
    (htags : ∀ e ∈ es, tagName ∉ e.2.map (·.1)) (hs : s.Admits (levels + 1)) {v : α}
    {ms : List (String × Json)} (hwithin : ∀ m ∈ ms, Within levels m.2)
    (hread : (tagged tagName kinds tagOf members).decode s (object ms).draft = .ok v) :
    ¬ (Schema.tagged tagName es).Repeats (.object ms) := by
  intro hrepeats
  rw [decode_tagged] at hread
  obtain ⟨s', henter, hread⟩ := bind_eq_ok_iff.mp hread
  obtain ⟨⟨found, held⟩, hheld, hread⟩ := bind_eq_ok_iff.mp hread
  cases found with
  | none => cases hread
  | some kind =>
    obtain ⟨pre, name, post, rfl, hnames, hnamed, rfl⟩ :=
      (Kind.holdMembers_eq_ok_iff (hs.of_enter henter) hwithin).mp hheld
    have hperm : (pre ++ (tagName, .text name) :: post).Perm
        ((tagName, .text name) :: (pre ++ post)) := List.perm_middle
    have haround := within_append_cons hwithin
    cases hrepeats with
    | tag hcount =>
      rw [(hperm.map _).count_eq, List.map_cons, List.count_cons_self] at hcount
      obtain ⟨m, hm, hname⟩ :=
        List.mem_map.mp (List.count_pos_iff.mp (Nat.le_of_succ_le_succ hcount))
      exact hnames m hm hname
    | kind hkind htag hrepeats =>
      rcases List.mem_cons.mp (hperm.mem_iff.mp htag) with heq | htag
      · cases heq
        obtain ⟨kind', hnamed', -, hfollows⟩ := hkinds.exists_named hkind
        rw [hnamed] at hnamed'
        cases hnamed'
        exact hfollows.not_repeats haround hread (repeats_of_append_cons (htags _ hkind) hrepeats)
      · exact hnames _ htag rfl

/-- An object answers if its kind does. -/
theorem isAnswer_decode_tagged (hkinds : Kind.AllFollow tagOf members kinds es)
    (htags : ∀ e ∈ es, tagName ∉ e.2.map (·.1)) (hs : s.Admits (levels + 1))
    {ms : List (String × Json)} (hwithin : ∀ m ∈ ms, Within levels m.2) {held : Bool}
    (hplaced : ¬ (Schema.tagged tagName es).IllPlaced held (.object ms)) :
    IsAnswer ((tagged tagName kinds tagOf members).decode s (object ms).draft) := by
  obtain ⟨s', henter, hs'⟩ := hs.enter
  rw [decode_tagged, henter]
  refine (Kind.isAnswer_holdMembers hs' hwithin none []).bind fun found hheld => ?_
  obtain ⟨kind, rest⟩ := found
  cases kind with
  | none => exact isAnswer_mismatch
  | some kind =>
    obtain ⟨pre, name, post, rfl, -, hnamed, rfl⟩ :=
      (Kind.holdMembers_eq_ok_iff hs' hwithin).mp hheld
    obtain ⟨fs, hkind, hfollows⟩ := hkinds.exists_schema hnamed
    have htag : (tagName, .text name) ∈ pre ++ (tagName, .text name) :: post := by simp
    refine hfollows.isAnswer_ofMembers (within_append_cons hwithin) fun hill => ?_
    exact hplaced (.kind hkind htag (illPlaced_append_cons (htags _ hkind) hill))

/-- So does a list. -/
theorem isAnswer_decode_tagged_list (hkinds : Kind.AllFollow tagOf members kinds es)
    (hs : s.Admits (levels + 1)) {js : List Json} (hwithin : ∀ j ∈ js, Within levels j)
    {held : Bool} (hplaced : ¬ (Schema.tagged tagName es).IllPlaced held (.list js)) :
    IsAnswer ((tagged tagName kinds tagOf members).decode s (Json.list js).draft) := by
  obtain ⟨s', henter, hs'⟩ := hs.enter
  cases js with
  | nil =>
    have hread : (tagged tagName kinds tagOf members).decode s (Json.list []).draft =
        s.enter.bind fun _ => .error .mismatch := rfl
    rw [hread, henter]
    exact isAnswer_mismatch
  | cons j js =>
    obtain ⟨hhead, htail⟩ := List.forall_mem_cons.mp hwithin
    rw [decode_tagged_list hs htail, henter]
    refine (isAnswer_text hhead).bind fun name hname => ?_
    refine (Kind.isAnswer_named kinds name).bind fun kind hnamed => ?_
    obtain ⟨fs, hkind, hfollows⟩ := hkinds.exists_schema hnamed
    have htext : j = .text name := eq_text_of_decode hhead hname
    subst htext
    exact hfollows.isAnswer_ofItems htail fun hill => hplaced (.items hkind hill)

/-- **Tagged records follow their schema** if their kinds do and no field has the name of the
tag. -/
theorem follows_tagged (hkinds : Kind.AllFollow tagOf members kinds es)
    (htags : ∀ e ∈ es, tagName ∉ e.2.map (·.1)) :
    (tagged tagName kinds tagOf members).Follows (.tagged tagName es) where
  decode_rearranged hs hwithin h := by
    cases h with
    | tagged hkind hkept hothers hperm =>
      obtain ⟨inner, rfl, hinner⟩ := hwithin.of_object
      exact decode_tagged_rearranged hkinds htags hs hinner hkind hkept hothers hperm
  not_repeats {levels s v j} hs hwithin hread h := by
    obtain ⟨ms, rfl⟩ : ∃ ms, j = .object ms := by cases h <;> exact ⟨_, rfl⟩
    obtain ⟨inner, rfl, hinner⟩ := hwithin.of_object
    exact not_repeats_of_decode_tagged hkinds htags hs hinner hread h
  isAnswer {levels s j} hs hwithin hplaced := by
    cases hwithin with
    | object hmembers => exact isAnswer_decode_tagged hkinds htags hs hmembers hplaced
    | list hitems => exact isAnswer_decode_tagged_list hkinds hs hitems hplaced
    | number hrange => exact isAnswer_misfit (Within.number hrange : Within levels _)
    | _ => exact isAnswer_mismatch
  absent_of_null h := by cases h

end Codec

end Postmortem.Json
