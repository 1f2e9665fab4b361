import ContractCapsule.Library.Framing
import ContractCapsule.Library.Loops
import ContractCapsule.Models.Identity
import ContractCapsule.Compile.Selection

/-!
# The Neutral Rendering is Unambiguous

The content that the neutral renderer makes is a sequence of pieces: the schema, atoms, expanded
texts and the task. Each piece shows where it ends, whatever the text inside it looks like, so the
content shows what every piece shows of the input.
-/

namespace ContractCapsule.Compile

open Library Models Resolve
open Enumeration (wire)

variable {F : Type} [FloatText F]

/-! ## Section 1: Frames -/

/-- A frame shows its text and where it ends, once its kind is known. -/
theorem frame_inj {kind text text' rest rest' : List Char}
    (h : frame kind text ++ rest = frame kind text' ++ rest') : text = text' ∧ rest = rest' := by
  have hdigits : ∀ n : ℕ, '\n' ∉ Json.decimal n := by
    intro n hmem
    have hall := List.all_eq_true.mp (Json.isInteger_decimal n) '\n' hmem
    exact absurd hall (by decide)
  unfold frame at h
  generalize "BEGIN ".toList = opening at h
  generalize " bytes=".toList = label at h
  generalize "\nEND ".toList = closing at h
  simp only [List.append_assoc, List.cons_append, List.nil_append] at h
  have hlength := append_delimiter_inj (hdigits _) (hdigits _)
    (List.append_cancel_left (List.append_cancel_left (List.append_cancel_left h)))
  -- the length says how far the text goes
  have hbytes : utf8Length text = utf8Length text' := by
    exact_mod_cast Json.decimal_injective hlength.1
  obtain ⟨rfl, htail⟩ := append_weight_inj Char.utf8Size_pos hbytes hlength.2
  refine ⟨rfl, ?_⟩
  have hend := List.append_cancel_left (List.append_cancel_left htail)
  exact (List.cons.inj hend).2

/-- A frame of a kind that ends in a digest shows the digest as well. -/
theorem frame_digest_inj {kind text text' rest rest' : List Char} {handle handle' : String}
    (hhandle : isDigest handle = true) (hhandle' : isDigest handle' = true)
    (h : frame (kind ++ handle.toList) text ++ rest =
      frame (kind ++ handle'.toList) text' ++ rest') :
    handle = handle' ∧ text = text' ∧ rest = rest' := by
  have hblank : ∀ {digest : String}, isDigest digest = true → ' ' ∉ digest.toList := by
    intro digest hdigest hmem
    exact absurd (Pattern.accepts_alphabet hdigest hmem) (by decide)
  have hkinds := h
  have hlabel : " bytes=".toList = ' ' :: "bytes=".toList := rfl
  unfold frame at hkinds
  rw [hlabel] at hkinds
  generalize "BEGIN ".toList = opening at hkinds
  generalize "bytes=".toList = label at hkinds
  generalize "\nEND ".toList = closing at hkinds
  simp only [List.append_assoc, List.cons_append, List.nil_append] at hkinds
  obtain ⟨heq, _⟩ := append_delimiter_inj (hblank hhandle) (hblank hhandle')
    (List.append_cancel_left (List.append_cancel_left hkinds))
  obtain rfl := String.toList_injective heq
  exact ⟨rfl, frame_inj h⟩

/-! ## Section 2: What a piece shows -/

/-- What the content shows of an atom: its fields, numbers by value and without the statement of an
atom of the evidence class, the identifiers of its evidence, and the excerpts of that class. -/
structure Shown where
  fields : Atom ℚ
  handles : List String
  excerpts : List String

/-- The fields of an atom that are rendered. -/
def renderedFields (atom : Atom (Number F)) : Atom ℚ :=
  match atom.compressionClass with
  | .p2Evidence => { Capsule.atomByValue atom with statement := "" }
  | _ => Capsule.atomByValue atom

/-- What is shown of an atom with its sources. -/
def shown (env : Environment F) (atom : Atom (Number F)) (sources : List EvidenceMaterial) :
    Shown where
  fields := renderedFields atom
  handles := sources.map fun source => handleId env source.handle
  excerpts := match atom.compressionClass with
    | .p2Evidence => sources.map EvidenceMaterial.excerpt
    | _ => []

/-- A piece of the content. -/
inductive Piece (F : Type) where
  | atom (atom : Atom (Number F)) (sources : List EvidenceMaterial)
  | expanded (handle text : String)
  | task (task : TaskContext)

/-- What a piece shows. -/
inductive PieceView where
  | atom (shown : Shown)
  | expanded (handle text : String)
  | task (task : TaskContext)

namespace Piece

variable (env : Environment F)

/-- The characters of a piece. -/
def text : Piece F → List Char
  | .atom item sources => atomText env item sources
  | .expanded handle fullText => frame ("EXPANDED ".toList ++ handle.toList) fullText.toList
  | .task context => frame "TASK".toList (taskText F context)

/-- What a piece shows. -/
def view : Piece F → PieceView
  | .atom item sources => .atom (shown env item sources)
  | .expanded handle fullText => .expanded handle fullText
  | .task context => .task context

/-- Pieces of valid atoms and of handles that are digests. -/
def legal : Piece F → Prop
  | .atom item _ => item.valid = true
  | .expanded handle _ => isDigest handle = true
  | .task _ => True

end Piece

/-! ## Section 3: Records of atoms -/

/-- The record of an atom of the structured class. -/
def atomRecord (atom : Atom (Number F)) (handles : List String) : Value F :=
  .object [("atom", Canonical.atom atom), ("evidence_handles", strings handles)]

/-- The record of an atom of another class, which leaves the statement out. -/
def metadata (atom : Atom (Number F)) (handles : List String) : Value F :=
  .object [("atom", .object (atomMembers atom)), ("evidence_handles", strings handles)]

/-- The atom with an empty statement. -/
def withoutStatement {ν : Type} (atom : Atom ν) : Atom ν := { atom with statement := "" }

/-- Values of strings are the same when the strings are. -/
theorem same_strings {xs ys : List String} :
    Same (strings xs : Value F) (strings ys) ↔ xs = ys := by
  constructor
  · intro h
    have hread := congrArg Wire.strings h
    have hx := Transport.byValue.strings_value (F := F) xs
    have hy := Transport.byValue.strings_value (F := F) ys
    exact Option.some.inj (hx.symm.trans (hread.trans hy))
  · rintro rfl
    exact Json.Same.refl _

/-- Atoms that are written alike are equal by value. -/
theorem atomByValue_of_same {a b : Atom (Number F)}
    (h : Same (Canonical.atom a) (Canonical.atom b)) :
    Capsule.atomByValue a = Capsule.atomByValue b := by
  have hread := congrArg Wire.atom h
  have ha := Transport.byValue.atom_value a
  have hb := Transport.byValue.atom_value b
  exact Option.some.inj (ha.symm.trans (hread.trans hb))

/-- The record of a valid atom shows its fields and the handles. -/
theorem atomRecord_inj {a b : Atom (Number F)} {handles handles' : List String}
    (ha : a.valid = true) (hb : b.valid = true)
    (h : canonicalText (atomRecord a handles) = canonicalText (atomRecord b handles')) :
    Capsule.atomByValue a = Capsule.atomByValue b ∧ handles = handles' := by
  have hexact : ∀ {c : Atom (Number F)} {hs : List String}, c.valid = true →
      (atomRecord c hs).numbersAll Number.exact = true := by
    intro c hs hc
    apply numbersAll_of_freezable
    rw [atomRecord, freezable_object]
    simp [freezable_atom hc]
  have hsame := (canonicalText_eq_iff (hexact ha) (hexact hb)).mp h
  have hvalues := (Json.same_object (by rfl) (by simp)).mp hsame
  simp only [List.map_cons, List.map_nil, List.forall₂_cons, List.forall₂_nil_left_iff,
    and_true] at hvalues
  exact ⟨atomByValue_of_same hvalues.1, same_strings.mp hvalues.2⟩

/-- The metadata of a valid atom show its fields but for the statement, and the handles. -/
theorem metadata_inj {a b : Atom (Number F)} {handles handles' : List String}
    (ha : a.valid = true) (hb : b.valid = true)
    (h : canonicalText (metadata a handles) = canonicalText (metadata b handles')) :
    withoutStatement (Capsule.atomByValue a) = withoutStatement (Capsule.atomByValue b) ∧
      handles = handles' := by
  have hexact : ∀ {c : Atom (Number F)} {hs : List String}, c.valid = true →
      (metadata c hs).numbersAll Number.exact = true := by
    intro c hs hc
    have hatom := freezable_atom hc
    apply numbersAll_of_freezable
    rw [Canonical.atom, freezable_object] at hatom
    rw [metadata, freezable_object]
    simp only [List.map_cons, List.map_nil, List.all_cons, List.all_nil] at hatom ⊢
    simp only [atomMembers, Canonical.atom, freezable_object]
    simp_all
  have hsame := (canonicalText_eq_iff (hexact ha) (hexact hb)).mp h
  have hvalues := (Json.same_object (by rfl) (by simp)).mp hsame
  simp only [List.map_cons, List.map_nil, List.forall₂_cons, List.forall₂_nil_left_iff,
    and_true] at hvalues
  refine ⟨?_, same_strings.mp hvalues.2⟩
  -- the members are those of the atom with an empty statement
  have hmembers := (Json.same_object (by rfl) (by simp [atomMembers, Canonical.atom])).mp hvalues.1
  have hbare : Same (Canonical.atom (withoutStatement a)) (Canonical.atom (withoutStatement b)) := by
    apply (Json.same_object (by rfl) (by simp)).mpr
    simpa [atomMembers, Canonical.atom, withoutStatement, Json.Same.refl] using hmembers
  exact atomByValue_of_same hbare

/-! ## Section 4: Pieces separate -/

/-- The character by which the kinds of pieces are told apart: a brace, or the one after the first
blank. -/
def leading (text : List Char) : Option Char :=
  if text.head? = some '{' then some '{' else (text.drop 6).head?

/-- The leading character of a piece. -/
def Piece.sign : Piece F → Char
  | .atom item _ => match item.compressionClass with
    | .p1Structured => 'A'
    | _ => '{'
  | .expanded _ _ => 'E'
  | .task _ => 'T'

theorem leading_frame (k : Char) (kind text rest : List Char) :
    leading (frame (k :: kind) text ++ rest) = some k := rfl

/-- The text of an object starts with a brace. -/
theorem head?_canonicalText_object (ms : Members (Number F)) (rest : List Char) :
    (canonicalText (.object ms) ++ rest).head? = some '{' := by
  have hobject : ∃ ns, ((Json.object ms : Value F).sortKeys utf16).map Number.jcsLexeme =
      .object ns := ⟨_, sortKeys_map_object utf16 Number.jcsLexeme ms⟩
  obtain ⟨ns, hobject⟩ := hobject
  rw [canonicalText, hobject]
  cases ns <;> rfl

/-- The pieces of an atom of the structured class. -/
theorem atomText_structured {env : Environment F} {atom : Atom (Number F)}
    {sources : List EvidenceMaterial} (h : atom.compressionClass = .p1Structured) :
    atomText env atom sources = frame "ATOM".toList
      (canonicalText (atomRecord atom (sources.map fun source => handleId env source.handle))) := by
  simp only [atomText, h]
  rfl

/-- The pieces of an atom of the evidence class. -/
theorem atomText_evidence {env : Environment F} {atom : Atom (Number F)}
    {sources : List EvidenceMaterial} (h : atom.compressionClass = .p2Evidence) :
    atomText env atom sources =
      canonicalText (metadata atom (sources.map fun source => handleId env source.handle)) ++
        '\n' :: sources.flatMap fun source =>
          frame ("EVIDENCE ".toList ++ (handleId env source.handle).toList)
            source.excerpt.toList := by
  simp only [atomText, h, List.append_assoc]
  rfl

/-- The pieces of an atom of another class. -/
theorem atomText_plain {env : Environment F} {atom : Atom (Number F)}
    {sources : List EvidenceMaterial} (hstructured : atom.compressionClass ≠ .p1Structured)
    (hevidence : atom.compressionClass ≠ .p2Evidence) :
    atomText env atom sources =
      canonicalText (metadata atom (sources.map fun source => handleId env source.handle)) ++
        '\n' :: frame ("ATOM ".toList ++ atom.atomId.toList) atom.statement.toList := by
  cases h : atom.compressionClass with
  | p1Structured => exact absurd h hstructured
  | p2Evidence => exact absurd h hevidence
  | _ =>
    simp only [atomText, h, List.append_assoc]
    rfl

theorem leading_text (env : Environment F) (p : Piece F) (rest : List Char) :
    leading (p.text env ++ rest) = some p.sign := by
  cases p with
  | atom item sources =>
    by_cases hstructured : item.compressionClass = .p1Structured
    · rw [Piece.text, atomText_structured hstructured, Piece.sign]
      simp only [hstructured]
      exact leading_frame _ _ _ _
    · have hbrace : (atomText env item sources ++ rest).head? = some '{' := by
        by_cases hevidence : item.compressionClass = .p2Evidence
        · rw [atomText_evidence hevidence, List.append_assoc]
          exact head?_canonicalText_object _ _
        · rw [atomText_plain hstructured hevidence, List.append_assoc]
          exact head?_canonicalText_object _ _
      rw [Piece.text, leading, if_pos hbrace, Piece.sign]
      split
      · next hclass => exact absurd hclass hstructured
      · rfl
  | expanded handle fullText => exact leading_frame _ _ _ _
  | task context => exact leading_frame _ _ _ _

/-- Tasks that are written alike are equal. -/
theorem taskText_injective {task task' : TaskContext} (h : taskText F task = taskText F task') :
    task = task' := by
  have hexact : ∀ t : TaskContext, (t.dump : Value F).numbersAll Number.exact = true := by
    intro t
    apply numbersAll_of_freezable
    simp [TaskContext.dump, freezable_object]
  have hsame := (canonicalText_eq_iff (hexact task) (hexact task')).mp h
  have hvalues := (Json.same_object (by rfl) (by simp)).mp hsame
  simp only [List.map_cons, List.map_nil, List.forall₂_cons, List.forall₂_nil_left_iff, and_true,
    Json.same_string, same_strings, literal] at hvalues
  obtain ⟨hid, htenant, hrepository, hpaths, henvironment, htext, hrisk, hinterfaces, hatoms⟩ :=
    hvalues
  cases task
  cases task'
  simp only [TaskContext.mk.injEq]
  exact ⟨hid, htenant, hrepository, hpaths, henvironment, htext,
    Enumeration.injective _ _ hrisk, hinterfaces, hatoms⟩

/-- The text of an atom shows its fields, its handles and its excerpts, and where it ends. -/
theorem atomText_inj {env : Environment F} {a b : Atom (Number F)}
    {sources sources' : List EvidenceMaterial} (ha : a.valid = true) (hb : b.valid = true)
    (hsign : (Piece.atom a sources).sign = (Piece.atom b sources').sign) {rest rest' : List Char}
    (h : atomText env a sources ++ rest = atomText env b sources' ++ rest') :
    shown env a sources = shown env b sources' ∧ rest = rest' := by
  by_cases hstructured : a.compressionClass = .p1Structured
  · -- both are of the structured class
    have hstructured' : b.compressionClass = .p1Structured := by
      cases hclass : b.compressionClass <;> simp [Piece.sign, hstructured, hclass] at hsign ⊢
    rw [atomText_structured hstructured, atomText_structured hstructured'] at h
    obtain ⟨htext, hrest⟩ := frame_inj h
    obtain ⟨hfields, hhandles⟩ := atomRecord_inj ha hb htext
    refine ⟨?_, hrest⟩
    simp only [shown, renderedFields, hstructured, hstructured', hfields, hhandles]
  · have hstructured' : b.compressionClass ≠ .p1Structured := by
      intro hclass
      cases hother : a.compressionClass <;> simp_all [Piece.sign]
    have hnewline : ∀ v : Value F, '\n' ∉ canonicalText v :=
      control_notMem_canonicalText (by decide)
    -- the metadata end at the first newline, and show the class
    have hmetadata : ∀ c : Atom (Number F), c.compressionClass ≠ .p1Structured →
        ∀ materials : List EvidenceMaterial, ∃ body, atomText env c materials =
          canonicalText (metadata c (materials.map fun source => handleId env source.handle)) ++
            '\n' :: body := by
      intro c hclass materials
      by_cases hevidence : c.compressionClass = .p2Evidence
      · exact ⟨_, atomText_evidence hevidence⟩
      · exact ⟨_, atomText_plain hclass hevidence⟩
    obtain ⟨body, hbody⟩ := hmetadata a hstructured sources
    obtain ⟨body', hbody'⟩ := hmetadata b hstructured' sources'
    have hparts := h
    rw [hbody, hbody', List.append_assoc, List.append_assoc, List.cons_append,
      List.cons_append] at hparts
    obtain ⟨htext, _⟩ := append_delimiter_inj (hnewline _) (hnewline _) hparts
    obtain ⟨hfields, hhandles⟩ := metadata_inj ha hb htext
    have hclass : a.compressionClass = b.compressionClass :=
      congrArg (fun c : Atom ℚ => c.compressionClass) hfields
    have hid : a.atomId = b.atomId := congrArg (fun c : Atom ℚ => c.atomId) hfields
    by_cases hevidence : a.compressionClass = .p2Evidence
    · have hevidence' := hclass ▸ hevidence
      rw [atomText_evidence hevidence, atomText_evidence hevidence', List.append_assoc,
        List.append_assoc, List.cons_append, List.cons_append] at h
      obtain ⟨_, hframes⟩ := append_delimiter_inj (hnewline _) (hnewline _) h
      have hexcerpts : sources.map EvidenceMaterial.excerpt =
          sources'.map EvidenceMaterial.excerpt ∧ rest = rest' := by
        apply flatMap_inj_of_keys ?_ hhandles hframes
        intro source source' hkey rest rest' heq
        rw [hkey] at heq
        obtain ⟨hexcerpt, hrest⟩ := frame_inj heq
        exact ⟨String.toList_injective hexcerpt, hrest⟩
      refine ⟨?_, hexcerpts.2⟩
      simp only [shown, renderedFields, hevidence, hevidence', hhandles, hexcerpts.1,
        Shown.mk.injEq, and_true]
      exact hfields
    · have hevidence' : b.compressionClass ≠ .p2Evidence := hclass ▸ hevidence
      rw [atomText_plain hstructured hevidence, atomText_plain hstructured' hevidence',
        List.append_assoc, List.append_assoc, List.cons_append, List.cons_append, hid] at h
      obtain ⟨_, hframe⟩ := append_delimiter_inj (hnewline _) (hnewline _) h
      obtain ⟨hstatement, hrest⟩ := frame_inj hframe
      have hatom : Capsule.atomByValue a = Capsule.atomByValue b := by
        have hback : ∀ c : Atom (Number F), Capsule.atomByValue c =
            { withoutStatement (Capsule.atomByValue c) with statement := c.statement } :=
          fun _ => rfl
        rw [hback a, hback b, hfields, String.toList_injective hstatement]
      refine ⟨?_, hrest⟩
      cases hother : a.compressionClass with
      | p1Structured => exact absurd hother hstructured
      | p2Evidence => exact absurd hother hevidence
      | _ =>
        have hother' := hclass ▸ hother
        simp only [shown, renderedFields, hother, hother', hatom, hhandles]

/-- Every piece shows what it is and where it ends. -/
theorem separates (env : Environment F) :
    Separates Piece.legal (Piece.text env) (Piece.view env) := by
  intro p q hp hq rest rest' h
  -- the first sign of a text tells the kinds of pieces apart
  have hsign : p.sign = q.sign := by
    have hleading := congrArg leading h
    rw [leading_text, leading_text] at hleading
    exact Option.some.inj hleading
  cases p with
  | atom a sources =>
    cases q with
    | atom b sources' =>
      obtain ⟨hshown, hrest⟩ := atomText_inj hp hq hsign h
      exact ⟨congrArg PieceView.atom hshown, hrest⟩
    -- the texts of the classes begin otherwise
    | expanded handle fullText =>
      cases hclass : a.compressionClass <;> simp [Piece.sign, hclass] at hsign
    | task context => cases hclass : a.compressionClass <;> simp [Piece.sign, hclass] at hsign
  | expanded handle fullText =>
    cases q with
    | atom b sources' => cases hclass : b.compressionClass <;> simp [Piece.sign, hclass] at hsign
    | expanded handle' fullText' =>
      obtain ⟨hhandle, htext, hrest⟩ := frame_digest_inj hp hq h
      refine ⟨?_, hrest⟩
      rw [Piece.view, Piece.view, hhandle, String.toList_injective htext]
    | task context => simp [Piece.sign] at hsign
  | task context =>
    cases q with
    | atom b sources' => cases hclass : b.compressionClass <;> simp [Piece.sign, hclass] at hsign
    | expanded handle fullText => simp [Piece.sign] at hsign
    | task context' =>
      obtain ⟨htask, hrest⟩ := frame_inj h
      exact ⟨congrArg PieceView.task (taskText_injective htask), hrest⟩

/-! ## Section 5: What the renderer writes -/

/-- The input of the renderer. Its atoms are those that the models admit. -/
structure RenderInput (F : Type) [FloatText F] where
  task : TaskContext
  atoms : List (RankedAtom F)
  evidence : List EvidenceMaterial
  expandedHandles : List String
  valid : ∀ item ∈ atoms, item.atom.valid = true

/-- A text with the label of its group. -/
def entryText (env : Environment F) (entry : String × Piece F) : String × List Char :=
  (entry.1, entry.2.text env)

/-- The labels of the groups. -/
def groupLabels : List String := ["P0", "P1", "P2", "P3", "P4"]

theorem classLabel_mem (compressionClass : CompressionClass) :
    classLabel compressionClass ∈ groupLabels := by
  cases compressionClass <;> decide

/-- The pieces with a label. -/
def labelled (entries : List (String × Piece F)) (label : String) : List (Piece F) :=
  (entries.filter fun entry => entry.1 = label).map Prod.snd

/-- The pieces in the order of the content. -/
def arranged (entries : List (String × Piece F)) (task : TaskContext) : List (Piece F) :=
  labelled entries "P0" ++ .task task :: (labelled entries "P1" ++ labelled entries "P2" ++
    labelled entries "P3" ++ labelled entries "P4")

omit [FloatText F] in
/-- The arrangement has the task and every piece that has the label of a group. -/
theorem mem_arranged {entries : List (String × Piece F)} {task : TaskContext}
    (hlabels : ∀ entry ∈ entries, entry.1 ∈ groupLabels) {p : Piece F} :
    p ∈ arranged entries task ↔ p = .task task ∨ p ∈ entries.map Prod.snd := by
  have hlabelled : ∀ label, p ∈ labelled entries label ↔ (label, p) ∈ entries := by
    intro label
    simp only [labelled, List.mem_map, List.mem_filter, decide_eq_true_eq]
    constructor
    · rintro ⟨entry, ⟨hentry, rfl⟩, rfl⟩
      exact hentry
    · intro hentry
      exact ⟨_, ⟨hentry, rfl⟩, rfl⟩
  simp only [arranged, List.mem_append, List.mem_cons, hlabelled, List.mem_map]
  constructor
  · rintro (h | rfl | ((h | h) | h) | h)
    · exact .inr ⟨_, h, rfl⟩
    · exact .inl rfl
    all_goals exact .inr ⟨_, h, rfl⟩
  · rintro (rfl | ⟨⟨label, q⟩, hentry, rfl⟩)
    · exact .inr (.inl rfl)
    · have hlabel := hlabels _ hentry
      simp only [groupLabels, List.mem_cons, List.not_mem_nil, or_false] at hlabel
      rcases hlabel with rfl | rfl | rfl | rfl | rfl <;> tauto

namespace RenderInput

variable (env : Environment F) (x : RenderInput F)

/-- The content that the neutral renderer makes of an input. -/
def content : Except CompileError (List Char) := do
  let sections ← neutralRender env x.expandedHandles x.task x.atoms x.evidence
  renderedContent sections

/-- The atoms in the order of the rendering. -/
def ordered : List (Atom (Number F)) :=
  (x.atoms.map RankedAtom.atom).insertionSort fun a b => a.atomId ≤ b.atomId

/-- The evidence attached to an atom. -/
def sourcesOf (atom : Atom (Number F)) : List EvidenceMaterial :=
  (materials env atom x.evidence).toOption.getD []

/-- What is rendered of the atoms. -/
def shownAtoms : List Shown :=
  x.atoms.map fun item => shown env item.atom (x.sourcesOf env item.atom)

/-- A dictionary with some more materials. -/
def assignAll (used sources : List EvidenceMaterial) : List EvidenceMaterial :=
  sources.foldl (fun d source => assign (fun m => handleId env m.handle) source d) used

/-- The evidence attached to the atoms, by handle. -/
def used : List EvidenceMaterial := assignAll env [] (x.ordered.flatMap (x.sourcesOf env))

/-- The text that a handle is expanded to. -/
def expansion (handle : String) : Option (String × String) :=
  ((x.used env).find? fun m => handleId env m.handle = handle).map fun m => (handle, m.fullText)

/-- The expanded texts, by handle. -/
def expandedTexts : List (String × String) := x.expandedHandles.filterMap (x.expansion env)

/-- The piece of an atom. -/
def atomEntry (atom : Atom (Number F)) : String × Piece F :=
  (classLabel atom.compressionClass, .atom atom (x.sourcesOf env atom))

variable {env x}

/-- The loop over the atoms writes each of them with its evidence. -/
theorem rendered_atoms {r : Rendering}
    (h : x.ordered.foldlM (renderAtom env x.evidence) ⟨[], [], []⟩ = .ok r) :
    r.texts = (x.ordered.map (x.atomEntry env)).map (entryText env) ∧ r.used = x.used env := by
  have hloop := foldlM_invariant
    (fun done (r : Rendering) => r.texts = (done.map (x.atomEntry env)).map (entryText env) ∧
      r.used = assignAll env [] (done.flatMap (x.sourcesOf env)))
    (by
      intro done r atom r' hdone hstep
      obtain ⟨htexts, hused⟩ := hdone
      simp only [renderAtom, Except.bind_eq_ok, Except.pure_eq_ok] at hstep
      obtain ⟨_, _, sources, hsources, _, _, rfl⟩ := hstep
      have hattached : x.sourcesOf env atom = sources := by
        rw [sourcesOf, hsources]
        rfl
      constructor
      · simp only [htexts, List.map_append, List.map_cons, List.map_nil]
        rw [atomEntry, hattached]
        rfl
      · simp only [hused, List.flatMap_append, List.flatMap_cons, List.flatMap_nil,
          List.append_nil, hattached, assignAll, List.foldl_append])
    ⟨rfl, rfl⟩ h
  exact hloop

/-- The loop over the handles writes the text of each of them under the label of a group. -/
theorem expanded_handles {r r' : Rendering} (hused : r.used = x.used env)
    (h : x.expandedHandles.foldlM
      (expandHandle env (x.atoms.map RankedAtom.atom)) r = .ok r') :
    ∃ entries : List (String × Piece F), r'.texts = r.texts ++ entries.map (entryText env) ∧
      entries.map Prod.snd = (x.expandedTexts env).map (fun e => .expanded e.1 e.2) ∧
      ∀ entry ∈ entries, entry.1 ∈ groupLabels := by
  -- the invariant of the loop: the handles done so far have written their texts, and `used` is as
  -- it was
  have hloop := foldlM_invariant
    (fun done (r' : Rendering) => r'.used = x.used env ∧
      ∃ entries : List (String × Piece F), r'.texts = r.texts ++ entries.map (entryText env) ∧
        entries.map Prod.snd =
          (done.filterMap (x.expansion env)).map (fun e => Piece.expanded e.1 e.2) ∧
        ∀ entry ∈ entries, entry.1 ∈ groupLabels)
    (by
      intro done s handle s' hdone hstep
      obtain ⟨hkept, entries, htexts, hpieces, hlabels⟩ := hdone
      simp only [expandHandle, Except.bind_eq_ok, Except.pure_eq_ok, orRaise_eq_ok] at hstep
      obtain ⟨source, hsource, owner, _, rfl⟩ := hstep
      -- the handle is looked up among the evidence in use, as its expansion is
      rw [hkept] at hsource
      have hexpansion : x.expansion env handle = some (handle, source.fullText) := by
        rw [expansion, hsource]
        rfl
      refine ⟨hkept, entries ++ [(classLabel owner.compressionClass,
        .expanded handle source.fullText)], ?_, ?_, ?_⟩
      · simp only [htexts, List.map_append, List.append_assoc]
        rfl
      · rw [List.map_append, hpieces, List.filterMap_append, List.map_append]
        simp [hexpansion]
      · intro entry hentry
        rcases List.mem_append.mp hentry with hold | hnew
        · exact hlabels entry hold
        · rw [List.mem_singleton.mp hnew]
          exact classLabel_mem _)
    ⟨hused, [], by simp, by simp, by simp⟩ h
  exact hloop.2

/-- The content is the schema and the pieces of the input, in the order of their groups. -/
theorem content_eq_ok {text : List Char} (h : x.content env = .ok text) :
    ∃ entries : List (String × Piece F),
      text = schemaText.toList ++ (arranged entries x.task).flatMap (Piece.text env) ∧
      entries.map Prod.snd =
        x.ordered.map (fun atom => .atom atom (x.sourcesOf env atom)) ++
          (x.expandedTexts env).map (fun e => .expanded e.1 e.2) ∧
      ∀ entry ∈ entries, entry.1 ∈ groupLabels := by
  simp only [content, neutralRender, expandHandles, renderedContent, Except.bind_eq_ok,
    Except.pure_eq_ok] at h
  obtain ⟨_, ⟨_, _, r, hatoms, r', ⟨_, _, hhandles⟩, _, _, rfl⟩, _, _, rfl⟩ := h
  obtain ⟨htexts, hused⟩ := rendered_atoms hatoms
  obtain ⟨expanded, hexpanded, hpieces, hlabels⟩ := expanded_handles hused hhandles
  -- the pieces are those of the atoms and then those of the expansions
  refine ⟨x.ordered.map (x.atomEntry env) ++ expanded, ?_, ?_, ?_⟩
  -- each group is what carries its label among all pieces
  · have hgroup : ∀ label, r'.group label =
        (labelled (x.ordered.map (x.atomEntry env) ++ expanded) label).flatMap (Piece.text env) := by
      intro label
      rw [Rendering.group, hexpanded, htexts, ← List.map_append, labelled, List.filter_map,
        List.flatMap_map, List.flatMap_map]
      rfl
    simp only [hgroup, arranged, List.flatMap_cons, List.flatMap_nil, List.flatMap_append,
      List.append_assoc, List.append_nil]
    rfl
  · rw [List.map_append, hpieces, List.map_map]
    rfl
  · intro entry hentry
    rcases List.mem_append.mp hentry with hatom | htext
    · obtain ⟨atom, _, rfl⟩ := List.mem_map.mp hatom
      exact classLabel_mem _
    · exact hlabels entry htext

end RenderInput

/-! ## Section 6: Equal contents -/

/-- The pieces of an input are legal when digests are digests. -/
theorem legal_pieces {env : Environment F} (hsha256 : ∀ text, isDigest (env.sha256 text) = true)
    {x : RenderInput F} {entries : List (String × Piece F)}
    (hpieces : entries.map Prod.snd =
      x.ordered.map (fun atom => .atom atom (x.sourcesOf env atom)) ++
        (x.expandedTexts env).map (fun e => .expanded e.1 e.2))
    (hlabels : ∀ entry ∈ entries, entry.1 ∈ groupLabels) :
    ∀ p ∈ arranged entries x.task, p.legal := by
  intro p hp
  rcases (mem_arranged hlabels).mp hp with rfl | hmem
  · trivial
  · rw [hpieces, List.mem_append] at hmem
    rcases hmem with hatom | hexpanded
    · obtain ⟨atom, hordered, rfl⟩ := List.mem_map.mp hatom
      rw [RenderInput.ordered, List.mem_insertionSort] at hordered
      obtain ⟨item, hitem, rfl⟩ := List.mem_map.mp hordered
      exact x.valid item hitem
    · -- a handle that is expanded is the identifier of a material
      obtain ⟨e, he, rfl⟩ := List.mem_map.mp hexpanded
      obtain ⟨handle, _, hexpansion⟩ := List.mem_filterMap.mp he
      rw [RenderInput.expansion, Option.map_eq_some_iff] at hexpansion
      obtain ⟨source, hsource, rfl⟩ := hexpansion
      have hhandle : handleId env source.handle = handle := by
        simpa using List.find?_some hsource
      show isDigest handle = true
      rw [← hhandle]
      exact hsha256 _

/-- What the pieces of an input show. -/
theorem mem_view_arranged {env : Environment F} {x : RenderInput F}
    {entries : List (String × Piece F)}
    (hpieces : entries.map Prod.snd =
      x.ordered.map (fun atom => .atom atom (x.sourcesOf env atom)) ++
        (x.expandedTexts env).map (fun e => .expanded e.1 e.2))
    (hlabels : ∀ entry ∈ entries, entry.1 ∈ groupLabels) (v : PieceView) :
    v ∈ (arranged entries x.task).map (Piece.view env) ↔
      v = .task x.task ∨ (∃ s ∈ x.shownAtoms env, v = .atom s) ∨
        ∃ e ∈ x.expandedTexts env, v = .expanded e.1 e.2 := by
  simp only [List.mem_map (f := Piece.view env), mem_arranged hlabels, hpieces, List.mem_append,
    List.mem_map, RenderInput.ordered, List.mem_insertionSort, RenderInput.shownAtoms]
  constructor
  · rintro ⟨p, rfl | ⟨atom, ⟨item, hitem, rfl⟩, rfl⟩ | ⟨e, he, rfl⟩, rfl⟩
    · exact .inl rfl
    · exact .inr (.inl ⟨_, ⟨item, hitem, rfl⟩, rfl⟩)
    · exact .inr (.inr ⟨e, he, rfl⟩)
  · rintro (rfl | ⟨s, ⟨item, hitem, rfl⟩, rfl⟩ | ⟨e, he, rfl⟩)
    · exact ⟨_, .inl rfl, rfl⟩
    · exact ⟨_, .inr (.inl ⟨_, ⟨item, hitem, rfl⟩, rfl⟩), rfl⟩
    · exact ⟨_, .inr (.inr ⟨e, he, rfl⟩), rfl⟩

/-- **Unambiguity**: inputs with one content have one task, the same rendered atoms with the same
evidence, and the same expanded texts. -/
theorem content_unambiguous {env : Environment F}
    (hsha256 : ∀ text, isDigest (env.sha256 text) = true) {x y : RenderInput F}
    {text : List Char} (hx : x.content env = .ok text) (hy : y.content env = .ok text) :
    x.task = y.task ∧ (∀ s, s ∈ x.shownAtoms env ↔ s ∈ y.shownAtoms env) ∧
      ∀ e, e ∈ x.expandedTexts env ↔ e ∈ y.expandedTexts env := by
  obtain ⟨xs, htext, hpieces, hlabels⟩ := RenderInput.content_eq_ok hx
  obtain ⟨ys, htext', hpieces', hlabels'⟩ := RenderInput.content_eq_ok hy
  have hnonempty : ∀ p : Piece F, p.text env ≠ [] := by
    intro p hempty
    have hleading := leading_text env p []
    rw [hempty] at hleading
    cases hleading
  have hviews := (separates env).flatMap hnonempty (legal_pieces hsha256 hpieces hlabels)
    (legal_pieces hsha256 hpieces' hlabels') (List.append_cancel_left (htext.symm.trans htext'))
  -- the same things are shown of both
  have hsame : ∀ v : PieceView,
      (v = .task x.task ∨ (∃ s ∈ x.shownAtoms env, v = .atom s) ∨
        ∃ e ∈ x.expandedTexts env, v = .expanded e.1 e.2) ↔
      (v = .task y.task ∨ (∃ s ∈ y.shownAtoms env, v = .atom s) ∨
        ∃ e ∈ y.expandedTexts env, v = .expanded e.1 e.2) := by
    intro v
    rw [← mem_view_arranged hpieces hlabels, ← mem_view_arranged hpieces' hlabels', hviews]
  refine ⟨?_, fun s => ?_, fun e => ?_⟩
  · simpa using hsame (.task x.task)
  · simpa using hsame (.atom s)
  · simpa using hsame (.expanded e.1 e.2)

/-- An input with an exact atom and one of the evidence class, whose evidence is expanded. -/
def sampleInput : RenderInput IntegralFloat where
  task            := sampleTask
  atoms           := rankedSample "a1" .p0Exact "s" true ++ rankedSample "b1" .p2Evidence "before" true
  evidence        := [sampleMaterial (capsuleRef sampleCapsule) ["a1", "b1"]]
  expandedHandles := [zeroDigest]
  valid           := by decide +kernel

/-- The input with its atoms in the other order, and another statement that is not rendered. -/
def reorderedInput : RenderInput IntegralFloat where
  task            := sampleTask
  atoms           := rankedSample "b1" .p2Evidence "after" true ++ rankedSample "a1" .p0Exact "s" true
  evidence        := [sampleMaterial (capsuleRef sampleCapsule) ["a1", "b1"]]
  expandedHandles := [zeroDigest]
  valid           := by decide +kernel

theorem content_unambiguous_reordered : sampleInput.atoms ≠ reorderedInput.atoms ∧
    ∃ text, sampleInput.content sampleEnvironment = .ok text ∧
      reorderedInput.content sampleEnvironment = .ok text ∧
      (∀ s, s ∈ sampleInput.shownAtoms sampleEnvironment ↔
        s ∈ reorderedInput.shownAtoms sampleEnvironment) ∧
      ∀ e, e ∈ sampleInput.expandedTexts sampleEnvironment ↔
        e ∈ reorderedInput.expandedTexts sampleEnvironment := by
  have hdigest : ∀ text, isDigest (sampleEnvironment.sha256 text) = true := by
    intro text
    show isDigest zeroDigest = true
    decide +kernel
  -- nothing that is rendered depends on the statement or on the order
  have hsame : sampleInput.content sampleEnvironment = reorderedInput.content sampleEnvironment :=
    rfl
  have hsome : (sampleInput.content sampleEnvironment).toOption.isSome = true := by
    decide +kernel
  obtain ⟨text, htext⟩ := Option.isSome_iff_exists.mp hsome
  have hfirst := Except.toOption_eq_some.mp htext
  have hsecond := hsame.symm.trans hfirst
  have hatoms : sampleInput.atoms ≠ reorderedInput.atoms := by
    intro h
    have hids := congrArg (List.map fun item => item.atom.atomId) h
    exact absurd hids (by decide)
  refine ⟨hatoms, text, hfirst, hsecond, ?_⟩
  exact (content_unambiguous hdigest hfirst hsecond).2

end ContractCapsule.Compile
