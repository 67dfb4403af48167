import Mathlib.Data.List.Nodup
import TaskFlow.Json.Record
import TaskFlow.Proofs.Json.Shape

/-! # Records

`Supplies names doc given` says what a document, written as an object or as an array, gives for the
fields with these names, and `Filled` how a blank record changes when its fields are filled in one
after the other.  The decoder of a record accepts a document exactly if it supplies its fields and
the record can be filled with what is given (`Record.ofDoc_eq_ok_iff`).

How the value of a field is read is a parameter of `Filled`, so that it can be used for documents
and for parsed values. -/

namespace TaskFlow.Json

variable {σ α δ ε : Type}

/-! ### What is given for the fields -/

/-- The values that are given under a name. -/
def valuesOf (name : String) (entries : List (String × δ)) : List δ :=
  entries.filterMap fun e => if e.1 = name then some e.2 else none

/-- The keys of the members are strings that stand for the keys of the entries. -/
def Keyed (members : List (List Piece × Doc)) (entries : List (String × Doc)) : Prop :=
  List.Forall₂ (fun m e => Piece.Denotes m.1 e.1.toList ∧ m.2 = e.2) members entries

/-- The document gives these values for the fields of these names: an object gives each at most
once, in any order and among others that need only be whole, and an array gives the first ones. -/
inductive Supplies (names : List String) : Doc → List (Option Doc) → Prop
  | obj {members : List (List Piece × Doc)} {entries : List (String × Doc)}
      {given : List (Option Doc)} :
      Keyed members entries →
      List.Forall₂ (fun name o => valuesOf name entries = o.toList) names given →
      (∀ e ∈ entries, e.1 ∉ names → e.2.Whole) →
      Supplies names (.obj members .closed) given
  | arr {items : List Doc} {omitted : Nat} :
      items.length + omitted = names.length →
      Supplies names (.arr items .closed) (items.map some ++ List.replicate omitted none)

/-- A value that has to be given. -/
inductive Required (R : Doc → α → Prop) : Option Doc → α → Prop
  | given {doc : Doc} {a : α} : R doc a → Required R (some doc) a

/-- A value that may be left out. -/
inductive Defaulted (R : Doc → α → Prop) (default : α) : Option Doc → α → Prop
  | given {doc : Doc} {a : α} : R doc a → Defaulted R default (some doc) a
  | omitted : Defaulted R default none default

theorem Required.whole {R : Doc → α → Prop} {o : Option Doc} {a : α}
    (hR : ∀ {doc a}, R doc a → doc.Whole) (h : Required R o a) : ∀ doc ∈ o, doc.Whole := by
  intro doc hdoc
  cases h with
  | given h =>
      cases hdoc
      exact hR h

theorem Defaulted.whole {R : Doc → α → Prop} {default : α} {o : Option Doc} {a : α}
    (hR : ∀ {doc a}, R doc a → doc.Whole) (h : Defaulted R default o a) :
    ∀ doc ∈ o, doc.Whole := by
  intro doc hdoc
  cases h with
  | given h =>
      cases hdoc
      exact hR h
  | omitted => cases hdoc

theorem mem_valuesOf {name : String} {d : δ} {entries : List (String × δ)}
    (h : (name, d) ∈ entries) : d ∈ valuesOf name entries :=
  List.mem_filterMap.2 ⟨_, h, if_pos rfl⟩

theorem valuesOf_cons_self (name : String) (d : δ) (entries : List (String × δ)) :
    valuesOf name ((name, d) :: entries) = d :: valuesOf name entries :=
  List.filterMap_cons_some (if_pos rfl)

theorem valuesOf_cons_of_ne {key name : String} (h : key ≠ name) (d : δ)
    (entries : List (String × δ)) : valuesOf name ((key, d) :: entries) = valuesOf name entries :=
  List.filterMap_cons_none (if_neg h)

theorem exists_mem_of_forall₂ {R : α → δ → Prop} {as : List α} {ds : List δ}
    (h : List.Forall₂ R as ds) {a : α} (ha : a ∈ as) : ∃ d ∈ ds, R a d := by
  induction h with
  | nil => cases ha
  | cons hR _ ih =>
      rcases List.mem_cons.1 ha with rfl | ha
      · exact ⟨_, List.mem_cons_self, hR⟩
      · obtain ⟨d, hd, h⟩ := ih ha
        exact ⟨d, List.mem_cons_of_mem _ hd, h⟩

theorem Supplies.whole {names : List String} {doc : Doc} {given : List (Option Doc)}
    (h : Supplies names doc given) (hgiven : ∀ o ∈ given, ∀ d ∈ o, d.Whole) : doc.Whole := by
  cases h with
  | obj hkeys hvalues hothers =>
      refine .obj fun m hm => ?_
      obtain ⟨e, he, -, heq⟩ := exists_mem_of_forall₂ hkeys hm
      rw [heq]
      by_cases hname : e.1 ∈ names
      · obtain ⟨o, ho, hvalue⟩ := exists_mem_of_forall₂ hvalues hname
        have hmem := mem_valuesOf he
        rw [hvalue, Option.mem_toList] at hmem
        exact hgiven o ho e.2 hmem
      · exact hothers e he hname
  | @arr items omitted =>
      refine .arr fun d hd => ?_
      exact hgiven (some d) (List.mem_append_left _ (List.mem_map_of_mem hd)) d rfl

/-- Reads the value of a field in a document. -/
abbrev Field.ofDoc (f : Field σ) (doc : Doc) : Except ReadError (σ → σ) :=
  f.set.ofDoc doc

/-! ### Filling a record -/

section filling

variable (read : Field σ → δ → Except ε (σ → σ))

/-- What is given for the field, if anything, turns one record into another. -/
inductive Fills (f : Field σ) : Option δ → σ → σ → Prop
  | given {d : δ} {change : σ → σ} {s : σ} : read f d = .ok change → Fills f (some d) s (change s)
  | omitted {s : σ} : f.required = false → Fills f none s s

/-- What is given for the fields, one after the other, turns one record into another. -/
def Filled : List (Field σ) → List (Option δ) → σ → σ → Prop
  | [], [], s, t => t = s
  | f :: fs, o :: os, s, t => ∃ s', Fills read f o s s' ∧ Filled fs os s' t
  | _, _, _, _ => False

/-- Reading all these values for the field takes what has been read for it before to what has been
read for it afterwards. -/
inductive Taken (f : Field σ) : List δ → Option (σ → σ) → Option (σ → σ) → Prop
  | nothing {c : Option (σ → σ)} : Taken f [] c c
  | one {d : δ} {change : σ → σ} : read f d = .ok change → Taken f [d] none (some change)

/-- The changes hold what is given for the field. -/
def Collected (changes : Given σ) (f : Field σ) (o : Option δ) : Prop :=
  Taken read f o.toList none (changes.lookup f.name)

end filling

variable {read : Field σ → δ → Except ε (σ → σ)} {f : Field σ} {fs : List (Field σ)}

theorem Taken.toList_head? {values : List δ} {before after : Option (σ → σ)}
    (h : Taken read f values before after) : values.head?.toList = values := by
  cases h <;> rfl

/-- Once a value has been read, there is no further one. -/
theorem Taken.cons {values : List δ} {d : δ} {change : σ → σ} {after : Option (σ → σ)}
    (h : Taken read f values (some change) after) (hread : read f d = .ok change) :
    Taken read f (d :: values) none after := by
  cases h
  exact .one hread

theorem Taken.of_cons {values : List δ} {d : δ} {before after : Option (σ → σ)}
    (h : Taken read f (d :: values) before after) :
    before = none ∧ values = [] ∧ ∃ change, read f d = .ok change := by
  cases h with
  | one hread => exact ⟨rfl, rfl, _, hread⟩

theorem exists_taken_of_filled {given : List (Option δ)} {s t : σ} (h : Filled read fs given s t) :
    List.Forall₂ (fun f o => ∃ after, Taken read f o.toList none after) fs given := by
  induction fs generalizing given s with
  | nil =>
      cases given with
      | nil => exact .nil
      | cons => cases h
  | cons f fs ih =>
      cases given with
      | nil => cases h
      | cons o os =>
          obtain ⟨s', hfills, h⟩ := h
          refine .cons ?_ (ih h)
          cases hfills with
          | given hread => exact ⟨_, .one hread⟩
          | omitted => exact ⟨_, .nothing⟩

section values

variable {put : α → σ → σ} {d : Decoder α} {R : Doc → α → Prop} {o : Option Doc} {s s' : σ}

theorem Field.ofDoc_eq_ok_iff (hset : f.set = d.map put) (hreads : Reads d R) {doc : Doc}
    {change : σ → σ} : f.ofDoc doc = .ok change ↔ ∃ a, R doc a ∧ put a = change := by
  rw [Field.ofDoc, hset, Decoder.map, map_eq_ok_iff]
  simp only [hreads.ofDoc_eq_ok_iff]

theorem fills_required_iff (hset : f.set = d.map put) (hreads : Reads d R)
    (hrequired : f.required = true) :
    Fills Field.ofDoc f o s s' ↔ ∃ a, Required R o a ∧ s' = put a s := by
  constructor
  · intro h
    cases h with
    | given hread =>
        obtain ⟨a, ha, rfl⟩ := (Field.ofDoc_eq_ok_iff hset hreads).1 hread
        exact ⟨a, .given ha, rfl⟩
    | omitted homitted =>
        rw [hrequired] at homitted
        cases homitted
  · intro h
    obtain ⟨a, ha, rfl⟩ := h
    cases ha with
    | given ha => exact .given ((Field.ofDoc_eq_ok_iff hset hreads).2 ⟨a, ha, rfl⟩)

/-- A field may be left out when the record holds its default before it is filled in. -/
theorem fills_defaulted_iff (hset : f.set = d.map put) (hreads : Reads d R)
    (hrequired : f.required = false) {default : α} (hdefault : put default s = s) :
    Fills Field.ofDoc f o s s' ↔ ∃ a, Defaulted R default o a ∧ s' = put a s := by
  constructor
  · intro h
    cases h with
    | given hread =>
        obtain ⟨a, ha, rfl⟩ := (Field.ofDoc_eq_ok_iff hset hreads).1 hread
        exact ⟨a, .given ha, rfl⟩
    | omitted => exact ⟨default, .omitted, hdefault.symm⟩
  · intro h
    obtain ⟨a, ha, rfl⟩ := h
    cases ha with
    | given ha => exact .given ((Field.ofDoc_eq_ok_iff hset hreads).2 ⟨a, ha, rfl⟩)
    | omitted =>
        rw [hdefault]
        exact .omitted hrequired

end values

theorem lookup_cons_of_ne {key name : String} (h : key ≠ name) (change : σ → σ)
    (changes : Given σ) : List.lookup name ((key, change) :: changes) = List.lookup name changes := by
  rw [List.lookup_cons, beq_eq_false_iff_ne.2 h.symm]

theorem Collected.cons_of_ne {changes : Given σ} {key : String} {change : σ → σ} {o : Option δ}
    (h : Collected read changes f o) (hkey : key ≠ f.name) :
    Collected read ((key, change) :: changes) f o := by
  rw [Collected, lookup_cons_of_ne hkey]
  exact h

namespace Record

/-! ### From what has been read to a record -/

theorem isGiven_eq_isSome (changes : Given σ) (name : String) :
    isGiven changes name = (changes.lookup name).isSome := by
  induction changes with
  | nil => rfl
  | cons c changes ih =>
      obtain ⟨name', change⟩ := c
      have hcons : isGiven ((name', change) :: changes) name =
          (name' == name || isGiven changes name) := rfl
      rw [hcons, ih, List.lookup_cons, BEq.comm]
      cases name == name' <;> rfl

/-- The record with the change for one field made, if there is one. -/
def filledIn (changes : Given σ) (s : σ) (f : Field σ) : σ :=
  match changes.lookup f.name with
  | some change => change s
  | none => s

theorem fill_eq_foldl (r : Record σ) (changes : Given σ) :
    r.fill changes = r.fields.foldl (filledIn changes) r.blank :=
  rfl

theorem fills_iff {changes : Given σ} {o : Option δ} (h : Collected read changes f o) (s s' : σ) :
    Fills read f o s s' ↔
      (f.required = true → isGiven changes f.name = true) ∧ filledIn changes s f = s' := by
  rw [isGiven_eq_isSome, filledIn]
  unfold Collected at h
  cases o with
  | none =>
      generalize changes.lookup f.name = c at h
      cases h
      constructor
      · intro h
        cases h with
        | omitted hrequired => simp [hrequired]
      · intro h
        obtain ⟨hrequired, rfl⟩ := h
        exact .omitted (by simpa using hrequired)
  | some d =>
      generalize changes.lookup f.name = c at h
      cases h with
      | one hread =>
          constructor
          · intro h
            cases h with
            | given hread' =>
                rw [hread] at hread'
                cases hread'
                simp
          · intro h
            obtain ⟨-, rfl⟩ := h
            exact .given hread

theorem filled_iff {changes : Given σ} {given : List (Option δ)}
    (h : List.Forall₂ (Collected read changes) fs given) (s t : σ) :
    Filled read fs given s t ↔
      (∀ f ∈ fs, f.required = true → isGiven changes f.name = true) ∧
        fs.foldl (filledIn changes) s = t := by
  induction h generalizing s with
  | nil =>
      rw [Filled, List.foldl_nil, eq_comm]
      simp
  | @cons f o fs os hf _ ih =>
      rw [Filled, List.forall_mem_cons, List.foldl_cons]
      simp only [fills_iff hf, ih]
      constructor
      · rintro ⟨_, ⟨hgiven, rfl⟩, hrest, ht⟩
        exact ⟨⟨hgiven, hrest⟩, ht⟩
      · rintro ⟨⟨hgiven, hrest⟩, ht⟩
        exact ⟨_, ⟨hgiven, rfl⟩, hrest, ht⟩

variable {r : Record σ} {changes changes' : Given σ}

theorem missing?_eq_none_iff :
    r.missing? changes = none ↔
      ∀ f ∈ r.fields, f.required = true → isGiven changes f.name = true := by
  rw [missing?, List.findIdx?_eq_none_iff]
  simp

theorem lt_of_missing? {i : Nat} (h : r.missing? changes = some i) : i < r.fields.length :=
  (List.findIdx?_eq_some_iff_getElem.1 h).1

theorem ofMembers_eq_ok_iff {given : List (Option δ)} {s : σ}
    (h : List.Forall₂ (Collected read changes) r.fields given) :
    r.ofMembers changes = .ok s ↔ Filled read r.fields given r.blank s := by
  rw [filled_iff h, ← missing?_eq_none_iff, ofMembers]
  cases hmissing : r.missing? changes with
  | none => simp [fill_eq_foldl]
  | some i => simp [List.getElem?_eq_getElem (lt_of_missing? hmissing)]

theorem ofItems_eq_ok_iff {given : List (Option δ)} {s : σ}
    (h : List.Forall₂ (Collected read changes) r.fields given) :
    r.ofItems changes = .ok s ↔ Filled read r.fields given r.blank s := by
  rw [filled_iff h, ← missing?_eq_none_iff, ofItems]
  cases hmissing : r.missing? changes with
  | none => simp [fill_eq_foldl]
  | some i => simp

/-! ### Members of an object -/

section members

variable {key : String}

theorem field?_eq_none_iff : r.field? key = none ↔ key ∉ r.fields.map Field.name := by
  rw [field?, List.find?_eq_none]
  simp

theorem ne_name_of_field? (hkey : r.field? key = none) (hf : f ∈ r.fields) : key ≠ f.name := by
  rintro rfl
  exact field?_eq_none_iff.1 hkey (List.mem_map_of_mem hf)

theorem field?_eq_some_iff (hnodup : (r.fields.map Field.name).Nodup) :
    r.field? key = some f ↔ f ∈ r.fields ∧ f.name = key := by
  constructor
  · intro h
    exact ⟨List.mem_of_find?_eq_some h, by simpa using List.find?_some h⟩
  · rintro ⟨hf, hkey⟩
    cases hfield : r.field? key with
    | none => exact absurd (hkey ▸ List.mem_map_of_mem hf) (field?_eq_none_iff.1 hfield)
    | some g =>
        have hg : g.name = key := by simpa using List.find?_some hfield
        rw [List.inj_on_of_nodup_map hnodup (List.mem_of_find?_eq_some hfield) hf (hg.trans hkey.symm)]

theorem docMembers_unknown {k : List Piece} {d : Doc} {ms : List (List Piece × Doc)}
    (hk : Piece.Denotes k key.toList) (hkey : r.field? key = none) :
    r.docMembers changes ((k, d) :: ms) = .ok changes' ↔
      d.Whole ∧ r.docMembers changes ms = .ok changes' := by
  rw [docMembers, bind_eq_ok_iff, inText_eq_ok_iff.2 (textOf_eq_ok_iff.2 hk)]
  simp only [Except.ok.injEq, exists_eq_left', hkey]
  rw [bind_unit_eq_ok_iff, inText_eq_ok_iff, Doc.skip_eq_ok_iff]

theorem docMembers_known {k : List Piece} {d : Doc} {ms : List (List Piece × Doc)}
    (hk : Piece.Denotes k key.toList) (hkey : r.field? key = some f) :
    r.docMembers changes ((k, d) :: ms) = .ok changes' ↔
      changes.lookup key = none ∧ ∃ change, f.set.ofDoc d = .ok change ∧
        r.docMembers ((key, change) :: changes) ms = .ok changes' := by
  rw [docMembers, bind_eq_ok_iff, inText_eq_ok_iff.2 (textOf_eq_ok_iff.2 hk)]
  simp only [Except.ok.injEq, exists_eq_left', hkey, isGiven_eq_isSome]
  cases changes.lookup key with
  | none =>
      rw [← bind_eq_ok_iff]
      exact (and_iff_right rfl).symm
  | some change =>
      refine iff_of_false ?_ ?_
      · intro h
        cases h
      · intro h
        cases h.1

theorem exists_keyed {members : List (List Piece × Doc)}
    (h : r.docMembers changes members = .ok changes') : ∃ entries, Keyed members entries := by
  induction members generalizing changes with
  | nil => exact ⟨[], .nil⟩
  | cons m ms ih =>
      obtain ⟨k, d⟩ := m
      obtain ⟨key, hkey, -⟩ := bind_eq_ok_iff.1 h
      have hk := textOf_eq_ok_iff.1 (inText_eq_ok_iff.1 hkey)
      have hrest : ∃ changes, r.docMembers changes ms = .ok changes' := by
        cases hfield : r.field? key with
        | none => exact ⟨_, ((docMembers_unknown hk hfield).1 h).2⟩
        | some f =>
            obtain ⟨-, _, -, h⟩ := (docMembers_known hk hfield).1 h
            exact ⟨_, h⟩
      obtain ⟨changes, h⟩ := hrest
      obtain ⟨entries, hentries⟩ := ih h
      exact ⟨(key, d) :: entries, .cons ⟨hk, rfl⟩ hentries⟩

/-- Reading the members takes what has been read for each field to what has been read for it
afterwards, and what stands under other names is whole. -/
theorem docMembers_taken (hnodup : (r.fields.map Field.name).Nodup)
    {members : List (List Piece × Doc)} {entries : List (String × Doc)}
    (hkeys : Keyed members entries) (h : r.docMembers changes members = .ok changes') :
    (∀ e ∈ entries, e.1 ∉ r.fields.map Field.name → e.2.Whole) ∧
      ∀ f ∈ r.fields, Taken Field.ofDoc f (valuesOf f.name entries)
        (changes.lookup f.name) (changes'.lookup f.name) := by
  induction hkeys generalizing changes with
  | nil =>
      cases h
      exact ⟨List.forall_mem_nil _, fun f _ => .nothing⟩
  | @cons m e members entries hkey _ ih =>
      obtain ⟨k, d⟩ := m
      obtain ⟨key, d'⟩ := e
      obtain ⟨hk, rfl⟩ := hkey
      rw [List.forall_mem_cons]
      cases hfield : r.field? key with
      | none =>
          obtain ⟨hd, h⟩ := (docMembers_unknown hk hfield).1 h
          obtain ⟨hothers, htaken⟩ := ih h
          refine ⟨⟨fun _ => hd, hothers⟩, fun f hf => ?_⟩
          rw [valuesOf_cons_of_ne (ne_name_of_field? hfield hf)]
          exact htaken f hf
      | some g =>
          obtain ⟨hg, rfl⟩ := (field?_eq_some_iff hnodup).1 hfield
          obtain ⟨hlookup, change, hchange, h⟩ := (docMembers_known hk hfield).1 h
          obtain ⟨hothers, htaken⟩ := ih h
          refine ⟨⟨fun hname => absurd (List.mem_map_of_mem hg) hname, hothers⟩, fun f hf => ?_⟩
          have htaken := htaken f hf
          by_cases hname : g.name = f.name
          · obtain rfl := List.inj_on_of_nodup_map hnodup hg hf hname
            rw [List.lookup_cons_self] at htaken
            rw [valuesOf_cons_self, hlookup]
            exact htaken.cons hchange
          · rw [valuesOf_cons_of_ne hname]
            rw [lookup_cons_of_ne hname] at htaken
            exact htaken

/-- Members are read if each field takes what stands under its name, and what stands under other
names is whole. -/
theorem exists_docMembers (hnodup : (r.fields.map Field.name).Nodup)
    {members : List (List Piece × Doc)} {entries : List (String × Doc)}
    (hkeys : Keyed members entries)
    (hothers : ∀ e ∈ entries, e.1 ∉ r.fields.map Field.name → e.2.Whole)
    (htaken : ∀ f ∈ r.fields, ∃ after, Taken Field.ofDoc f (valuesOf f.name entries)
      (changes.lookup f.name) after) :
    ∃ changes', r.docMembers changes members = .ok changes' := by
  induction hkeys generalizing changes with
  | nil => exact ⟨changes, rfl⟩
  | @cons m e members entries hkey _ ih =>
      obtain ⟨k, d⟩ := m
      obtain ⟨key, d'⟩ := e
      obtain ⟨hk, rfl⟩ := hkey
      obtain ⟨hd, hwhole⟩ := List.forall_mem_cons.1 hothers
      cases hfield : r.field? key with
      | none =>
          have hrest : ∀ f ∈ r.fields, ∃ after, Taken Field.ofDoc f
              (valuesOf f.name entries) (changes.lookup f.name) after := by
            intro f hf
            have htaken := htaken f hf
            rwa [valuesOf_cons_of_ne (ne_name_of_field? hfield hf)] at htaken
          obtain ⟨changes', h⟩ := ih hwhole hrest
          exact ⟨changes', (docMembers_unknown hk hfield).2 ⟨hd (field?_eq_none_iff.1 hfield), h⟩⟩
      | some g =>
          obtain ⟨hg, rfl⟩ := (field?_eq_some_iff hnodup).1 hfield
          obtain ⟨after, htakenG⟩ := htaken g hg
          rw [valuesOf_cons_self] at htakenG
          obtain ⟨hlookup, hvalues, change, hchange⟩ := htakenG.of_cons
          have hrest : ∀ f ∈ r.fields, ∃ after, Taken Field.ofDoc f
              (valuesOf f.name entries) (List.lookup f.name ((g.name, change) :: changes)) after := by
            -- The field that is read here takes nothing from the other members.
            intro f hf
            by_cases hname : g.name = f.name
            · rw [← hname, hvalues]
              exact ⟨_, .nothing⟩
            · have htaken := htaken f hf
              rw [valuesOf_cons_of_ne hname] at htaken
              rwa [lookup_cons_of_ne hname]
          obtain ⟨changes', h⟩ := ih hwhole hrest
          exact ⟨changes', (docMembers_known hk hfield).2 ⟨hlookup, change, hchange, h⟩⟩

end members

/-! ### Items of an array -/

section items

/-- Reads items for as many fields. -/
def readItems (read : Field σ → δ → Except ε (σ → σ)) (fs : List (Field σ)) (items : List δ) :
    Except ε (Given σ) :=
  (fs.zip items).mapM fun (f, d) => return (f.name, ← read f d)

theorem readItems_cons {d : δ} {items : List δ} :
    readItems read (f :: fs) (d :: items) = .ok changes ↔
      ∃ change rest, read f d = .ok change ∧ readItems read fs items = .ok rest ∧
        changes = (f.name, change) :: rest := by
  rw [readItems, List.zip_cons_cons, List.mapM_cons, bind_eq_ok_iff]
  constructor
  · rintro ⟨c, hc, h⟩
    obtain ⟨change, hchange, hc⟩ := bind_eq_ok_iff.1 hc
    obtain ⟨rest, hrest, h⟩ := bind_eq_ok_iff.1 h
    cases hc
    cases h
    exact ⟨change, rest, hchange, hrest, rfl⟩
  · rintro ⟨change, rest, hchange, hrest, rfl⟩
    exact ⟨_, bind_eq_ok_iff.2 ⟨change, hchange, rfl⟩, bind_eq_ok_iff.2 ⟨rest, hrest, rfl⟩⟩

theorem readItems_nil (read : Field σ → δ → Except ε (σ → σ)) (fs : List (Field σ)) :
    readItems read fs [] = .ok [] := by
  rw [readItems, List.zip_nil_right]
  rfl

theorem forall₂_collected_nil (fs : List (Field σ)) :
    List.Forall₂ (Collected read []) fs (List.replicate fs.length none) := by
  induction fs with
  | nil => exact .nil
  | cons f fs ih => exact .cons .nothing ih

theorem readItems_collected {items : List δ} {omitted : Nat}
    (hnodup : (fs.map Field.name).Nodup) (hlength : items.length + omitted = fs.length)
    (h : readItems read fs items = .ok changes) :
    List.Forall₂ (Collected read changes) fs (items.map some ++ List.replicate omitted none) := by
  induction items generalizing fs changes with
  | nil =>
      rw [readItems_nil] at h
      cases h
      rw [List.length_nil, Nat.zero_add] at hlength
      rw [hlength]
      exact forall₂_collected_nil fs
  | cons d items ih =>
      cases fs with
      | nil => simp at hlength
      | cons f fs =>
          obtain ⟨change, rest, hchange, hrest, rfl⟩ := readItems_cons.1 h
          rw [List.map_cons, List.nodup_cons] at hnodup
          have hcollected := ih hnodup.2 (by simp only [List.length_cons] at hlength; omega) hrest
          refine .cons ?_ ?_
          · rw [Collected, List.lookup_cons_self]
            exact .one hchange
          · have hother : ∀ g ∈ fs, f.name ≠ g.name := by
              intro g hg hname
              exact hnodup.1 (hname ▸ List.mem_map_of_mem hg)
            have hboth := (List.forall₂_and_left _ _).2 ⟨hother, hcollected⟩
            exact hboth.imp fun g o h => h.2.cons_of_ne h.1

theorem exists_readItems {items : List δ} {given : List (Option δ)} {s t : σ}
    (h : Filled read fs (items.map some ++ given) s t) :
    ∃ changes, readItems read fs items = .ok changes := by
  induction items generalizing fs s with
  | nil => exact ⟨[], readItems_nil read fs⟩
  | cons d items ih =>
      cases fs with
      | nil => cases h
      | cons f fs =>
          obtain ⟨s', hfills, h⟩ := h
          obtain ⟨rest, hrest⟩ := ih h
          cases hfills with
          | @given _ change _ hread =>
              exact ⟨_, readItems_cons.2 ⟨change, rest, hread, hrest, rfl⟩⟩

end items

theorem docItems_eq_readItems (r : Record σ) (items : List Doc) :
    r.docItems items = readItems Field.ofDoc r.fields items :=
  rfl

/-! ### Documents -/

/-- What has been read from the members of an object is what the object supplies. -/
theorem obj_supplies (hnodup : (r.fields.map Field.name).Nodup)
    {members : List (List Piece × Doc)} (h : r.docMembers [] members = .ok changes) :
    ∃ given, Supplies (r.fields.map Field.name) (.obj members .closed) given ∧
      List.Forall₂ (Collected Field.ofDoc changes) r.fields given := by
  obtain ⟨entries, hkeys⟩ := exists_keyed h
  obtain ⟨hothers, htaken⟩ := docMembers_taken hnodup hkeys h
  refine ⟨r.fields.map fun f => (valuesOf f.name entries).head?, .obj hkeys ?_ hothers, ?_⟩
  · rw [List.forall₂_map_left_iff, List.forall₂_map_right_iff, List.forall₂_same]
    exact fun f hf => (htaken f hf).toList_head?.symm
  · rw [List.forall₂_map_right_iff, List.forall₂_same]
    intro f hf
    rw [Collected, (htaken f hf).toList_head?]
    exact htaken f hf

/-- What an object supplies is read from its members, if each field can be read. -/
theorem exists_collected_members (hnodup : (r.fields.map Field.name).Nodup)
    {members : List (List Piece × Doc)} {entries : List (String × Doc)} {given : List (Option Doc)}
    {s t : σ} (hkeys : Keyed members entries)
    (hvalues : List.Forall₂ (fun name o => valuesOf name entries = o.toList)
      (r.fields.map Field.name) given)
    (hothers : ∀ e ∈ entries, e.1 ∉ r.fields.map Field.name → e.2.Whole)
    (hfilled : Filled Field.ofDoc r.fields given s t) :
    ∃ changes, r.docMembers [] members = .ok changes ∧
      List.Forall₂ (Collected Field.ofDoc changes) r.fields given := by
  rw [List.forall₂_map_left_iff] at hvalues
  have hboth : List.Forall₂
      (fun f _ => (∃ after, Taken Field.ofDoc f (valuesOf f.name entries) none after) ∧ True)
      r.fields given := by
    refine hvalues.mp ?_ (exists_taken_of_filled hfilled)
    intro f o hvalue hafter
    rw [hvalue]
    exact ⟨hafter, trivial⟩
  have htaken := ((List.forall₂_and_left _ _).1 hboth).1
  obtain ⟨changes, h⟩ : ∃ changes, r.docMembers [] members = .ok changes :=
    exists_docMembers hnodup hkeys hothers htaken
  have hcollected := (List.forall₂_and_left _ _).2 ⟨(docMembers_taken hnodup hkeys h).2, hvalues⟩
  refine ⟨changes, h, hcollected.imp ?_⟩
  rintro f o ⟨htaken, hvalue⟩
  rw [Collected, ← hvalue]
  exact htaken

theorem ofDoc_obj_eq_ok_iff (hnodup : (r.fields.map Field.name).Nodup)
    {members : List (List Piece × Doc)} {ending : Ending} {s : σ} :
    r.decoder.ofDoc (.obj members ending) = .ok s ↔
      ∃ given, Supplies (r.fields.map Field.name) (.obj members ending) given ∧
        Filled Field.ofDoc r.fields given r.blank s := by
  constructor
  · intro h
    obtain ⟨changes, hmembers, hrest⟩ := bind_eq_ok_iff.1 h
    obtain ⟨hending, hrest⟩ := bind_unit_eq_ok_iff.1 hrest
    rw [inText_eq_ok_iff, read_ending_eq_ok_iff] at hending
    rw [inShape_eq_ok_iff] at hrest
    obtain ⟨given, hsupplies, hcollected⟩ := obj_supplies hnodup hmembers
    rw [hending]
    exact ⟨given, hsupplies, (ofMembers_eq_ok_iff hcollected).1 hrest⟩
  · intro h
    obtain ⟨given, hsupplies, hfilled⟩ := h
    cases hsupplies with
    | obj hkeys hvalues hothers =>
        obtain ⟨changes, hmembers, hcollected⟩ :=
          exists_collected_members hnodup hkeys hvalues hothers hfilled
        refine bind_eq_ok_iff.2 ⟨changes, hmembers, bind_unit_eq_ok_iff.2 ⟨rfl, ?_⟩⟩
        exact inShape_eq_ok_iff.2 ((ofMembers_eq_ok_iff hcollected).2 hfilled)

theorem ofDoc_arr_eq_ok_iff (hnodup : (r.fields.map Field.name).Nodup) {items : List Doc}
    {ending : Ending} {s : σ} :
    r.decoder.ofDoc (.arr items ending) = .ok s ↔
      ∃ given, Supplies (r.fields.map Field.name) (.arr items ending) given ∧
        Filled Field.ofDoc r.fields given r.blank s := by
  constructor
  · intro h
    obtain ⟨changes, hitems, hrest⟩ := bind_eq_ok_iff.1 h
    by_cases hlong : r.fields.length < items.length
    · rw [if_pos hlong] at hrest
      cases hrest
    · rw [docItems_eq_readItems] at hitems
      rw [if_neg hlong] at hrest
      obtain ⟨hending, hrest⟩ := bind_unit_eq_ok_iff.1 hrest
      rw [inText_eq_ok_iff, read_ending_eq_ok_iff] at hending
      rw [inShape_eq_ok_iff] at hrest
      have hlength := Nat.add_sub_of_le (Nat.le_of_not_lt hlong)
      have hcollected := readItems_collected hnodup hlength hitems
      rw [hending]
      refine ⟨_, .arr ?_, (ofItems_eq_ok_iff hcollected).1 hrest⟩
      rw [List.length_map]
      exact hlength
  · intro h
    obtain ⟨given, hsupplies, hfilled⟩ := h
    cases hsupplies with
    | @arr _ omitted hlength =>
        rw [List.length_map] at hlength
        obtain ⟨changes, hitems⟩ := exists_readItems hfilled
        have hcollected := readItems_collected hnodup hlength hitems
        have hlong : ¬ r.fields.length < items.length := by omega
        refine bind_eq_ok_iff.2 ⟨changes, hitems, ?_⟩
        rw [if_neg hlong]
        refine bind_unit_eq_ok_iff.2 ⟨rfl, ?_⟩
        exact inShape_eq_ok_iff.2 ((ofItems_eq_ok_iff hcollected).2 hfilled)

/-- The decoder accepts a document exactly if it supplies the fields of the record, and the blank
record can be filled with what is given. -/
theorem ofDoc_eq_ok_iff (r : Record σ) (hnodup : (r.fields.map Field.name).Nodup) (doc : Doc)
    (s : σ) :
    r.decoder.ofDoc doc = .ok s ↔
      ∃ given, Supplies (r.fields.map Field.name) doc given ∧
        Filled Field.ofDoc r.fields given r.blank s := by
  cases doc with
  | obj members ending => exact ofDoc_obj_eq_ok_iff hnodup
  | arr items ending => exact ofDoc_arr_eq_ok_iff hnodup
  | _ => exact iff_of_false Decoder.rejectDoc_ne_ok (by rintro ⟨_, ⟨⟩, -⟩)

end Record

end TaskFlow.Json
