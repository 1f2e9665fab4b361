import ContractCapsule.Library.PyJson

/-!
# Places of Keys

`json.loads` returns a value and forgets where its parts stood. `memberPlaces` reads the members of
the object at the root once more and keeps the place at which each key begins.

`readText_of_mem_memberPlaces` says that the key is read at its place, and
`exists_mem_memberPlaces` that every key of the dictionary that `loads` returns has a place.
-/

namespace Library

/-! ## Section 1: Readers that keep their place -/

variable {α : Type}

/-- A reader that also says how much text was left where it began. -/
def readPlaced (item : Reader α) : Reader (ℕ × α) := fun t => do
  let (x, rest) ← item t
  .ok ((t.length, x), rest)

/-- What a reader leaves is the end of what it was given. -/
def LeavesSuffix (item : Reader α) : Prop := ∀ t x rest, item t = .ok (x, rest) → rest <:+ t

theorem skipBlank_suffix (t : Text) : skipBlank t <:+ t := List.dropWhile_suffix _

theorem LeavesSuffix.placed {item : Reader α} (h : LeavesSuffix item) :
    LeavesSuffix (readPlaced item) := by
  intro t x rest hread
  obtain ⟨⟨y, rest'⟩, hitem, heq⟩ := (Except.bind_eq_ok _ _ _).mp hread
  cases heq
  exact h t y rest hitem

/-- Each item of a container was read from an end of its text. -/
theorem mem_readItems {item : Reader α} (hitem : LeavesSuffix item) {close : CodePoint} {fuel : ℕ}
    {t rest : Text} {xs : List α} (h : readItems item close fuel t = .ok (xs, rest)) {x : α}
    (hx : x ∈ xs) : ∃ t' rest', t' <:+ t ∧ item t' = .ok (x, rest') := by
  induction fuel generalizing t xs with
  | zero => cases h
  | succ fuel ih =>
    rw [readItems, Except.bind_eq_ok] at h
    obtain ⟨⟨first, rest₁⟩, hfirst, h⟩ := h
    have hsuffix := hitem t first rest₁ hfirst
    cases hnext : skipBlank rest₁ with
    | nil => simp only [hnext, reduceCtorEq] at h
    | cons c rest₂ =>
      simp only [hnext] at h
      split_ifs at h with hclosed hcomma
      · -- the container ends here
        cases h
        rw [List.mem_singleton.mp hx]
        exact ⟨t, rest₁, List.suffix_refl t, hfirst⟩
      · -- another item follows
        obtain ⟨⟨more, rest₃⟩, hmore, heq⟩ := (Except.bind_eq_ok _ _ _).mp h
        cases heq
        rcases List.mem_cons.mp hx with rfl | hlater
        · exact ⟨t, rest₁, List.suffix_refl t, hfirst⟩
        · obtain ⟨t', rest', ht', hread⟩ := ih hmore hlater
          refine ⟨t', rest', ht'.trans ?_, hread⟩
          have hblank : c :: rest₂ <:+ rest₁ := hnext ▸ skipBlank_suffix rest₁
          exact (skipBlank_suffix rest₂).trans
            ((List.suffix_cons c rest₂).trans (hblank.trans hsuffix))

/-- A reader that keeps its place reads the same items. -/
theorem readItems_placed {item : Reader α} {close : CodePoint} {fuel : ℕ} {t rest : Text}
    {xs : List α} (h : readItems item close fuel t = .ok (xs, rest)) :
    ∃ placed, readItems (readPlaced item) close fuel t = .ok (placed, rest) ∧
      placed.map Prod.snd = xs := by
  induction fuel generalizing t xs with
  | zero => cases h
  | succ fuel ih =>
    rw [readItems, Except.bind_eq_ok] at h
    obtain ⟨⟨first, rest₁⟩, hfirst, h⟩ := h
    -- the place is noted beside the value, and nothing else changes
    have hplaced : readPlaced item t = .ok ((t.length, first), rest₁) := by
      rw [readPlaced, hfirst]
      rfl
    rw [readItems, hplaced, Except.ok_bind]
    cases hnext : skipBlank rest₁ with
    | nil => simp only [hnext, reduceCtorEq] at h
    | cons c rest₂ =>
      simp only [hnext] at h ⊢
      split_ifs at h ⊢ with hclosed hcomma
      · cases h
        exact ⟨_, rfl, rfl⟩
      · obtain ⟨⟨more, rest₃⟩, hmore, heq⟩ := (Except.bind_eq_ok _ _ _).mp h
        cases heq
        obtain ⟨placed, hread, hmap⟩ := ih hmore
        exact ⟨_, by rw [hread]; rfl, by rw [List.map_cons, hmap]⟩

/-- Each item of a container was read from an end of its text. -/
theorem mem_readContainer {item : Reader α} (hitem : LeavesSuffix item) {close : CodePoint}
    {t rest : Text} {xs : List α} (h : readContainer item close t = .ok (xs, rest)) {x : α}
    (hx : x ∈ xs) : ∃ t' rest', t' <:+ t ∧ item t' = .ok (x, rest') := by
  rw [readContainer] at h
  cases hnext : skipBlank t with
  | nil => simp only [hnext, reduceCtorEq] at h
  | cons c rest' =>
    simp only [hnext] at h
    split_ifs at h with hclosed
    · cases h
      cases hx
    · obtain ⟨t', rest'', ht', hread⟩ := mem_readItems hitem h hx
      exact ⟨t', rest'', ht'.trans (hnext ▸ skipBlank_suffix t), hread⟩

theorem readContainer_placed {item : Reader α} {close : CodePoint} {t rest : Text} {xs : List α}
    (h : readContainer item close t = .ok (xs, rest)) :
    ∃ placed, readContainer (readPlaced item) close t = .ok (placed, rest) ∧
      placed.map Prod.snd = xs := by
  rw [readContainer] at h ⊢
  cases hnext : skipBlank t with
  | nil => simp only [hnext, reduceCtorEq] at h
  | cons c rest' =>
    simp only [hnext] at h ⊢
    split_ifs at h ⊢ with hclosed
    · cases h
      exact ⟨[], rfl, rfl⟩
    · exact readItems_placed h

/-- A key of a dictionary is the key of one of its pairs. -/
theorem PyJson.fst_mem_of_mem_dictOf {ν : Type} {pairs : List (Text × PyJson ν)}
    {member : Text × PyJson ν} (h : member ∈ PyJson.dictOf pairs) :
    member.1 ∈ pairs.map Prod.fst := by
  -- over the loop: a member is an earlier one, or has the key of a pair that was gone through
  have hfold : ∀ (rest members : List (Text × PyJson ν)), member ∈ rest.foldl (fun members pair =>
      if members.any fun m => m.1 = pair.1 then
        members.map fun m => if m.1 = pair.1 then pair else m
      else members ++ [pair]) members → member ∈ members ∨ member.1 ∈ rest.map Prod.fst := by
    intro rest
    induction rest with
    | nil =>
      intro members hin
      exact .inl hin
    | cons pair rest ih =>
      intro members hin
      rcases ih _ hin with hearlier | hlater
      · dsimp only at hearlier
        split at hearlier
        · obtain ⟨m, hm, rfl⟩ := List.mem_map.mp hearlier
          by_cases hsame : m.1 = pair.1
          · rw [if_pos hsame]
            exact .inr List.mem_cons_self
          · rw [if_neg hsame]
            exact .inl hm
        · rcases List.mem_append.mp hearlier with hold | hnew
          · exact .inl hold
          · rw [List.mem_singleton.mp hnew]
            exact .inr List.mem_cons_self
      · exact .inr (List.mem_cons_of_mem _ hlater)
  rcases hfold pairs [] h with hnil | hin
  · cases hnil
  · exact hin

/-! ## Section 2: Values -/

namespace PyDecoder

variable {ν : Type} {D : PyDecoder ν}

/-- A reader takes one character at least and leaves the end of its text. -/
def Consumes (item : Reader α) : Prop := ∀ {t x rest}, item t = .ok (x, rest) → Reads True t rest

theorem Consumes.leavesSuffix {item : Reader α} (h : Consumes item) : LeavesSuffix item := by
  intro t x rest hread
  obtain ⟨used, hused, _⟩ := (h hread).takes
  exact ⟨used, hused.symm⟩

theorem consumes_readMember {item : Reader α} (h : Consumes item) : Consumes (readMember item) := by
  intro t x rest hread
  exact (@reads_readMember α (fun _ => True) item h t rest x.1 x.2 hread).mono fun _ => trivial

theorem consumes_readContainer {item : Reader α} (h : Consumes item) {close c : CodePoint}
    (hclose : quiet close = true) (hc : quiet c = true) {t rest : Text} {xs : List α}
    (hread : readContainer item close t = .ok (xs, rest)) : Reads True (c :: t) rest := by
  apply Reads.of_takes hc
  exact (@takes_readContainer α (fun _ => True) item h close hclose t rest xs hread).mono
    fun _ => trivial

theorem consumes_readWith {nested : Option (Reader (PyJson ν))}
    (hnested : ∀ value ∈ nested, Consumes value) : Consumes (D.readWith nested) := by
  intro t v rest h
  cases t with
  | nil => cases h
  | cons c t =>
    rw [readWith] at h
    split_ifs at h with hquote hbrace hbracket
    · obtain ⟨⟨s, rest'⟩, hs, heq⟩ := (Except.bind_eq_ok _ _ _).mp h
      cases heq
      exact (reads_readText hs).mono fun _ => trivial
    · -- an object
      obtain ⟨value, hvalue, h⟩ := (Except.bind_eq_ok _ _ _).mp h
      obtain ⟨⟨pairs, rest'⟩, hpairs, h⟩ := (Except.bind_eq_ok _ _ _).mp h
      obtain ⟨members, _, heq⟩ := (Except.bind_eq_ok _ _ _).mp h
      cases heq
      have hitem : Consumes value := hnested value ((orRaise_eq_ok _ _ _).mp hvalue)
      rw [hbrace]
      exact consumes_readContainer (consumes_readMember hitem)
        (quiet_ofChar (by decide) (by decide)) (quiet_ofChar (by decide) (by decide)) hpairs
    · -- an array
      obtain ⟨value, hvalue, h⟩ := (Except.bind_eq_ok _ _ _).mp h
      obtain ⟨⟨items, rest'⟩, hitems, heq⟩ := (Except.bind_eq_ok _ _ _).mp h
      cases heq
      have hitem : Consumes value := hnested value ((orRaise_eq_ok _ _ _).mp hvalue)
      rw [hbracket]
      exact consumes_readContainer hitem (quiet_ofChar (by decide) (by decide))
        (quiet_ofChar (by decide) (by decide)) hitems
    · exact reads_readScalar True h

theorem consumes_readValue (depth : ℕ) : Consumes (D.readValue depth) := by
  induction depth with
  | zero =>
    apply consumes_readWith
    intro value hvalue
    cases hvalue
  | succ depth ih =>
    apply consumes_readWith
    intro value hvalue
    cases hvalue
    exact ih

/-! ## Section 3: Keys of the root -/

variable (D)

/-- The keys of the object at the root of a document, each with the place where it begins. -/
def memberPlaces (t : Text) : List (ℕ × Text) :=
  match skipBlank t, D.limit with
  | _ :: inside, depth + 1 =>
    match readContainer (readPlaced (readMember (D.readValue depth))) (ofChar '}') inside with
    | .ok (members, _) => members.map fun member => (t.length - member.1, member.2.1)
    | .error _ => []
  | _, _ => []

variable {D}

/-- A key is read at its place. -/
theorem readText_of_mem_memberPlaces {t key : Text} {place : ℕ}
    (h : (place, key) ∈ D.memberPlaces t) :
    ∃ rest, readText (t.drop place) = .ok (key, rest) := by
  rw [memberPlaces] at h
  split at h
  · next c inside depth hblank hlimit =>
    split at h
    · next members rest hread =>
      obtain ⟨⟨left, key', v⟩, hmember, heq⟩ := List.mem_map.mp h
      obtain ⟨rfl, rfl⟩ := Prod.mk.inj heq
      have hitem : LeavesSuffix (readPlaced (readMember (D.readValue depth))) :=
        (Consumes.leavesSuffix (consumes_readMember (consumes_readValue depth))).placed
      obtain ⟨t', rest', hsuffix, hplaced⟩ := mem_readContainer hitem hread hmember
      obtain ⟨⟨m, rest''⟩, hmemberRead, heq'⟩ := (Except.bind_eq_ok _ _ _).mp hplaced
      cases heq'
      -- what was left when the member was read is the end of the document
      have hinside : c :: inside <:+ t := hblank ▸ skipBlank_suffix t
      have hall : t' <:+ t := hsuffix.trans ((List.suffix_cons c inside).trans hinside)
      have hdrop : t.drop (t.length - t'.length) = t' := by
        obtain ⟨front, rfl⟩ := hall
        simp
      rw [hdrop]
      obtain ⟨⟨key'', rest₁⟩, hkey, hrest⟩ := (Except.bind_eq_ok _ _ _).mp hmemberRead
      refine ⟨rest₁, ?_⟩
      have hsame : key'' = key' := by
        cases hnext : skipBlank rest₁ with
        | nil => simp only [hnext, reduceCtorEq] at hrest
        | cons d rest₂ =>
          simp only [hnext] at hrest
          split_ifs at hrest
          obtain ⟨pair, _, heq''⟩ := (Except.bind_eq_ok _ _ _).mp hrest
          cases heq''
          rfl
      rw [hkey, hsame]
    · cases h
  · cases h

/-- A key begins with its quote. -/
theorem getElem?_of_mem_memberPlaces {t key : Text} {place : ℕ}
    (h : (place, key) ∈ D.memberPlaces t) : t[place]? = some (ofChar '"') := by
  obtain ⟨rest, hread⟩ := readText_of_mem_memberPlaces h
  cases hdrop : t.drop place with
  | nil => simp only [readText, hdrop, reduceCtorEq] at hread
  | cons c tail =>
    simp only [readText, hdrop] at hread
    split_ifs at hread with hquote
    rw [← List.head?_drop, hdrop, hquote]
    rfl

/-- Every pair that the object at the root is made of has a place. -/
theorem exists_mem_memberPlaces {t : Text} {members : List (Text × PyJson ν)}
    (h : D.loads t = .ok (.dict members)) :
    ∃ pairs, D.pairs pairs = .ok members ∧
      (D.memberPlaces t).map Prod.snd = pairs.map Prod.fst := by
  obtain ⟨_, _, hparse⟩ := (Except.bind_eq_ok _ _ _).mp h
  obtain ⟨⟨v, rest⟩, hvalue, hrest⟩ := (Except.bind_eq_ok _ _ _).mp hparse
  obtain ⟨_, _, heq⟩ := (Except.bind_eq_ok _ _ _).mp hrest
  obtain rfl : v = .dict members := Except.ok.inj heq
  -- only the branch of a brace answers an object; the others answer a string, a list or a scalar
  have hnested : ∀ {nested : Option (Reader (PyJson ν))} {text rest' : Text},
      D.readWith nested text = .ok (.dict members, rest') →
      ∃ value c inside pairs rest'', nested = some value ∧ text = c :: inside ∧
        readContainer (readMember value) (ofChar '}') inside = .ok (pairs, rest'') ∧
        D.pairs pairs = .ok members := by
    intro nested text rest' hread
    cases text with
    | nil => cases hread
    | cons c inside =>
      rw [readWith] at hread
      split_ifs at hread with hquote hbrace hbracket
      · obtain ⟨pair, _, heq'⟩ := (Except.bind_eq_ok _ _ _).mp hread
        cases heq'
      · obtain ⟨value, hsome, hread⟩ := (Except.bind_eq_ok _ _ _).mp hread
        obtain ⟨⟨pairs, rest''⟩, hpairs, hread⟩ := (Except.bind_eq_ok _ _ _).mp hread
        obtain ⟨members', hmembers, heq'⟩ := (Except.bind_eq_ok _ _ _).mp hread
        obtain ⟨heq', _⟩ := Prod.mk.inj (Except.ok.inj heq')
        obtain rfl := PyJson.dict.inj heq'
        exact ⟨value, c, inside, pairs, rest'', (orRaise_eq_ok _ _ _).mp hsome, rfl, hpairs,
          hmembers⟩
      · obtain ⟨value, _, hread⟩ := (Except.bind_eq_ok _ _ _).mp hread
        obtain ⟨pair, _, heq'⟩ := (Except.bind_eq_ok _ _ _).mp hread
        cases heq'
      · exact absurd hread readScalar_ne_dict
  -- an object needs a level of nesting
  cases hlimit : D.limit with
  | zero =>
    rw [hlimit] at hvalue
    obtain ⟨_, _, _, _, _, hnone, _⟩ := hnested hvalue
    cases hnone
  | succ depth =>
    rw [hlimit] at hvalue
    obtain ⟨value, c, inside, pairs, rest'', hsome, hblank, hread, hpairs⟩ := hnested hvalue
    obtain rfl := Option.some.inj hsome
    obtain ⟨placed, hplaced, hmap⟩ := readContainer_placed hread
    refine ⟨pairs, hpairs, ?_⟩
    -- the places are taken by the reader that read the members
    rw [memberPlaces, hblank, hlimit]
    simp only [hplaced]
    rw [← hmap, List.map_map, List.map_map]
    rfl

end PyDecoder

end Library
