/-
Collections that are rebuilt from what they show.

A stored collection is its type and its elements in iteration order. The rest
has to be recovered from them: the keys of a case-insensitive set, the order
that removals have left, that the elements passed the check, and that a
collection wrapped as empty is empty.

Elements that are kept apart all stay, in their order, when they are put in
again (`gather_eq_self`), and they are filed under the keys they had
(`entries_ofElements`). What is not recovered are the slots of hashed elements.
They make no difference where equality is an equivalence, since then no two
elements answer for one value (`find?_eq_of_slots`); so all that is asked of
the rebuilt collection later it answers as the other does
(`Alike.answers_eq`). Where equality is none, the history can show
(`rebuild_forgets_slots`).
-/
import Recast.Proofs.Collection.SetEquality
import Mathlib.Data.List.Induction

namespace Recast

namespace Discipline

variable {d : Discipline} {e : Value} {es : List Value}

theorem last_unless_any {p : Value → Bool} (h : ∀ f ∈ es, p f = false) :
    (if es.any p then (false, es) else (true, es ++ [e])).2 = es ++ [e] := by
  have hany : es.any p = false := List.any_eq_false.2 fun f hf => by simp [h f hf]
  rw [hany]
  rfl

theorem Keeps.insert_last (hd : d ≠ .sorted) (h : d.Keeps (es ++ [e])) :
    (d.insert e es).2 = es ++ [e] := by
  cases d with
  | sequence => rfl
  | sorted => exact absurd rfl hd
  | hashed | caseless =>
    exact last_unless_any fun f hf => (List.pairwise_append.1 h).2.2 f hf e List.mem_cons_self

/-- Elements that are apart all stay when they are put in one by one. -/
theorem gather_eq_self (hd : d ≠ .sorted) (h : d.Keeps es) : d.gather es = es := by
  induction es using List.reverseRecOn with
  | nil => rfl
  | append_singleton es e ih =>
    have hes : d.Keeps es := h.sublist (List.sublist_append_left es [e])
    calc d.gather (es ++ [e]) = (d.insert e (d.gather es)).2 := List.foldl_append
      _ = (d.insert e es).2 := by rw [ih hes]
      _ = es ++ [e] := h.insert_last hd

theorem firstMet?_eq_of_slots {α : Type} {p : α → Bool} {as : List α}
    (hone : ∀ (i j : Nat) a b, as[i]? = some a → as[j]? = some b → p a → p b → i = j)
    (slots slots' : List Nat) : firstMet? p slots as = firstMet? p slots' as := by
  cases hmet : firstMet? p slots as with
  | none => exact (firstMet?_eq_none_iff.2 (firstMet?_eq_none_iff.1 hmet)).symm
  | some i =>
    obtain ⟨⟨a, ha, hpa⟩, -⟩ := firstMet?_eq_some hmet
    cases hmet' : firstMet? p slots' as with
    | none =>
      have hnot := firstMet?_eq_none_iff.1 hmet' a (List.mem_of_getElem? ha)
      simp [hnot] at hpa
    | some j =>
      obtain ⟨⟨b, hb, hpb⟩, -⟩ := firstMet?_eq_some hmet'
      exact congrArg some (hone i j a b ha hb hpa hpb)

theorem eq_of_same {same : Value → Value → Bool} (hsame : EquivalenceOn same (e :: es))
    (hapart : es.Pairwise fun earlier later => same later earlier = false) {i j : Nat} {a b : Value}
    (ha : es[i]? = some a) (hb : es[j]? = some b) (hea : same e a) (heb : same e b) : i = j := by
  have hboth {i j : Nat} {a b : Value} (ha : es[i]? = some a) (hb : es[j]? = some b)
      (hea : same e a) (heb : same e b) : ¬ i < j := by
    intro hlt
    obtain ⟨hi, rfl⟩ := List.getElem?_eq_some_iff.1 ha
    obtain ⟨hj, rfl⟩ := List.getElem?_eq_some_iff.1 hb
    have hamem : es[i] ∈ e :: es := List.mem_cons_of_mem e (List.getElem_mem hi)
    have hbmem : es[j] ∈ e :: es := List.mem_cons_of_mem e (List.getElem_mem hj)
    have hback : same es[j] e := hsame.symm e List.mem_cons_self _ hbmem heb
    have hba : same es[j] es[i] := hsame.trans _ hbmem e List.mem_cons_self _ hamem hback hea
    rw [List.pairwise_iff_getElem.1 hapart i j hi hj hlt] at hba
    cases hba
  have hle : i ≤ j := Nat.le_of_not_lt (hboth hb ha heb hea)
  exact Nat.le_antisymm hle (Nat.le_of_not_lt (hboth ha hb hea heb))

/-- Where equality is an equivalence, which element a removal takes does not depend on slots. -/
theorem find?_eq_of_slots (hd : d ≠ .sorted) (h : d.Keeps es)
    (hsame : d ≠ .sequence → EquivalenceOn (· == ·) (e :: es)) (slots slots' : List Nat) :
    d.find? e slots es = d.find? e slots' es := by
  cases d with
  | sequence => rfl
  | sorted => exact absurd rfl hd
  | hashed =>
    refine firstMet?_eq_of_slots (fun i j a b ha hb hea heb => ?_) slots slots'
    exact eq_of_same (hsame nofun) h ha hb hea heb
  | caseless =>
    refine firstMet?_eq_of_slots (fun i j a b ha hb hea heb => ?_) slots slots'
    exact eq_of_same (Value.equivalenceOn_equalFolded (hsame nofun)) h ha hb hea heb

end Discipline

namespace Collection

variable {c : Collection}

/-! ## The collection -/

theorem Reachable.type_instantiable (h : c.Reachable) : c.type.instantiable = c.type := by
  induction h with
  | ofElements made => rw [(ofElements_eq_ok made).type, CollectionTy.instantiable_instantiable]
  | @step c _ change ih => rw [(steps_step c change).type_eq, ih]

theorem Reachable.ofElements_elements (h : c.Reachable) (hd : c.discipline ≠ .sorted) :
    Collection.ofElements c.type c.elements = .ok (filled c.type c.elements) ∧
      (filled c.type c.elements).type = c.type ∧
      (filled c.type c.elements).elements = c.elements := by
  have htype : c.type.instantiable = c.type := h.type_instantiable
  have hchecks : ∀ e ∈ c.elements, checkElement c.type e = .ok () := by
    refine fun e he => checkElement_eq_ok_iff.2 fun element helement => ?_
    have hchecked := h.sound.checked element helement e he
    exact Bool.or_eq_true_iff.2 (hchecked.imp_left Value.isNull_iff.2)
  have hroom : c.type.wrapper? = some .empty → c.elements = [] :=
    fun hempty => List.eq_nil_of_length_eq_zero (h.sound.empty hempty)
  have hgather : c.type.discipline.gather c.elements = c.elements :=
    Discipline.gather_eq_self hd (h.kept hd)
  exact ⟨ofElements_eq (by rwa [htype]) (by rwa [htype]), by rw [filled_type, htype],
    by rw [filled_elements, htype, hgather]⟩

/-! ## What is asked of it later -/

/-- What is asked of a collection. -/
inductive Request
  | change (change : Change)
  | contains (v : Value)
  | elements

/-- What a collection answers. -/
inductive Answer
  | changed (result : Except CollectionError (Option Bool))
  | contains (found : Bool)
  | elements (es : List Value)

/-- The answer to a request, and the collection afterwards. -/
def answer (c : Collection) : Request → Answer × Collection
  | .change change => (.changed (c.step change).1, (c.step change).2)
  | .contains v => (.contains (c.contains v), c)
  | .elements => (.elements c.elements, c)

/-- The answers to requests that are made one after the other. -/
def answers (c : Collection) : List Request → List Answer
  | [] => []
  | request :: later => (c.answer request).1 :: answers (c.answer request).2 later

def Change.values : Change → List Value
  | .insert v | .remove v => [v]
  | .clear | .rearrange _ => []

/-- The values that a request is about. -/
def Request.values : Request → List Value
  | .change asked => asked.values
  | .contains v => [v]
  | .elements => []

/-- Collections that differ in their slots at most. -/
structure Alike (c d : Collection) : Prop where
  type : d.type = c.type
  elements : d.elements = c.elements

variable {d : Collection}

theorem Alike.store (h : c.Alike d) (v : Value) :
    (d.store v).1 = (c.store v).1 ∧ (c.store v).2.Alike (d.store v).2 := by
  have hinsert : d.discipline.insert v d.elements = c.discipline.insert v c.elements := by
    rw [discipline, discipline, h.type, h.elements]
  refine ⟨?_, h.type, ?_⟩
  · rw [store_fst, store_fst, hinsert]
  · rw [store_elements, store_elements, hinsert]

theorem Alike.take (h : c.Alike d) {v : Value}
    (hfind : c.discipline.find? v d.slots c.elements = c.discipline.find? v c.slots c.elements) :
    (d.take v).1 = (c.take v).1 ∧ (c.take v).2.Alike (d.take v).2 := by
  unfold Collection.take
  rw [discipline, h.type, h.elements, ← discipline, hfind]
  cases c.discipline.find? v c.slots c.elements with
  | none => exact ⟨rfl, h⟩
  | some i => exact ⟨rfl, rfl, rfl⟩

/-- A change is answered alike where a removal finds the same element. -/
theorem Alike.step (h : c.Alike d) (change : Change)
    (hfind : ∀ v ∈ change.values,
      c.discipline.find? v d.slots c.elements = c.discipline.find? v c.slots c.elements) :
    (d.step change).1 = (c.step change).1 ∧ (c.step change).2.Alike (d.step change).2 := by
  have hreadOnly : d.isReadOnly = c.isReadOnly := congrArg CollectionTy.isReadOnly h.type
  by_cases hro : c.isReadOnly
  · rw [step_of_isReadOnly hro, step_of_isReadOnly (hreadOnly.trans hro), h.type]
    exact ⟨rfl, h⟩
  rw [step_of_writable hro, step_of_writable (by rwa [hreadOnly])]
  cases change with
  | insert v =>
    simp only [h.type]
    cases checkElement c.type v with
    | error e => exact ⟨rfl, h⟩
    | ok => exact ⟨congrArg (Except.ok ∘ some) (h.store v).1, (h.store v).2⟩
  | remove v =>
    have htake := h.take (hfind v List.mem_cons_self)
    exact ⟨congrArg (Except.ok ∘ some) htake.1, htake.2⟩
  | clear => exact ⟨rfl, h.type, rfl⟩
  | rearrange slots => exact ⟨rfl, h.type, h.elements⟩

theorem step_elements_subset (c : Collection) (change : Change) :
    (c.step change).2.elements ⊆ c.elements ++ change.values := by
  have hsteps := steps_step c change
  generalize c.step change = r at hsteps
  cases hsteps with
  | readOnly | refused | rearrange => exact List.subset_append_left _ _
  | @insert v =>
    intro e he
    rcases Discipline.mem_insert he with rfl | he
    · simp [Change.values]
    · exact List.mem_append_left _ he
  | remove => exact fun e he => List.mem_append_left _ ((c.take_sublist _).subset he)
  | clear => exact nofun

/-- Collections that differ in their slots alone answer all requests alike, wherever equality is an
equivalence among their elements and the values asked about. -/
theorem Alike.answers_eq (h : c.Alike d) (hd : c.discipline ≠ .sorted) (hkept : c.Kept)
    {requests : List Request}
    (hsame : c.discipline ≠ .sequence →
      EquivalenceOn (· == ·) (c.elements ++ requests.flatMap Request.values)) :
    d.answers requests = c.answers requests := by
  induction requests generalizing c d with
  | nil => rfl
  | cons request later ih =>
    rw [answers, answers]
    cases request with
    | change change =>
      have hfind : ∀ v ∈ change.values, c.discipline.find? v d.slots c.elements =
          c.discipline.find? v c.slots c.elements := by
        refine fun v hv => Discipline.find?_eq_of_slots hd hkept (fun hne => ?_) d.slots c.slots
        refine (hsame hne).mono (List.cons_subset.2 ⟨?_, List.subset_append_left _ _⟩)
        simp [Request.values, hv]
      obtain ⟨hanswer, halike⟩ := h.step change hfind
      have hdiscipline : (c.step change).2.discipline = c.discipline :=
        congrArg CollectionTy.discipline (steps_step c change).type_eq
      refine congrArg₂ List.cons (congrArg Answer.changed hanswer) ?_
      refine ih (c := (c.step change).2) halike (by rwa [hdiscipline])
        (hkept.step_of_ne_sorted hd change) fun hne => ?_
      rw [hdiscipline] at hne
      refine (hsame hne).mono (List.append_subset.2 ⟨?_, ?_⟩)
      · refine List.Subset.trans (step_elements_subset c change) ?_
        simp [Request.values, ← List.append_assoc]
      · rw [List.flatMap_cons, ← List.append_assoc]
        exact List.subset_append_right _ _
    | contains v =>
      refine congrArg₂ List.cons ?_ (ih h hd hkept fun hne => ?_)
      · simp only [answer, Collection.contains, discipline, h.type, h.elements]
      · refine (hsame hne).mono (List.append_subset.2 ⟨List.subset_append_left _ _, ?_⟩)
        rw [List.flatMap_cons, ← List.append_assoc]
        exact List.subset_append_right _ _
    | elements =>
      exact congrArg₂ List.cons (congrArg Answer.elements h.elements) (ih h hd hkept hsame)

end Collection

/-! ## The keys of a case-insensitive set -/

namespace Filing

variable {f : Filing} {c : Collection}

/-- Elements are filed anew under the keys they had. -/
theorem entries_ofElements (h : f.Sound) : (ofElements f.elements).entries = f.entries := by
  obtain ⟨entries, slots⟩ := f
  simp only [elements]
  induction entries using List.reverseRecOn with
  | nil => rfl
  | append_singleton entries entry ih =>
    have hfiled : Sound ⟨entries, slots⟩ := h.sublist (List.sublist_append_left entries [entry])
    have hkey : entry.2.foldCase = entry.1 := (h.key entry (by simp)).symm
    have hnew : entries.any (entry.1 == ·.1) = false :=
      List.any_eq_false.2 fun earlier he => by
        simpa using (List.pairwise_append.1 h.distinct).2.2 earlier he entry List.mem_cons_self
    have hlast : ofElements ((entries ++ [entry]).map (·.2)) =
        (insert entry.2 (ofElements (entries.map (·.2)))).2 := by
      rw [List.map_append]
      exact List.foldl_append
    rw [hlast, insert, contains, ih hfiled, hkey, hnew]
    simp

/-- What a change answers by the keys alone. -/
def changed (f : Filing) : Collection.Change → Option Bool
  | .insert v => some (insert v f).1
  | .remove v => some (remove v f).1
  | .clear | .rearrange _ => none

/-- The answer to a request by the keys alone, and the filing afterwards. -/
def answer (f : Filing) : Collection.Request → Collection.Answer × Filing
  | .change change => (.changed (.ok (f.changed change)), f.step change)
  | .contains v => (.contains (f.contains v), f)
  | .elements => (.elements f.elements, f)

/-- The answers to requests that are made one after the other. -/
def answers (f : Filing) : List Collection.Request → List Collection.Answer
  | [] => []
  | request :: later => (f.answer request).1 :: answers (f.answer request).2 later

theorem Files.changed_eq (h : f.Files c) (change : Collection.Change) :
    (c.step change).1 = .ok (f.changed change) := by
  have htype := type_of_caseless h.caseless
  have hsteps := Collection.steps_step c change
  generalize c.step change = r at hsteps
  cases hsteps with
  | readOnly hclosed =>
    rw [Collection.isReadOnly, htype] at hclosed
    cases hclosed
  | refused _ hchecks =>
    rw [htype] at hchecks
    cases hchecks
  | insert => exact congrArg (Except.ok ∘ some) (h.store _).1
  | remove => exact congrArg (Except.ok ∘ some) (h.take _).1
  | clear | rearrange => rfl

theorem Files.contains_eq (h : f.Files c) (v : Value) : c.contains v = f.contains v := by
  rw [Collection.contains, h.caseless, h.elements]
  exact contains_elements h.sound v

theorem Files.answer_eq (h : f.Files c) (request : Collection.Request) :
    (f.answer request).1 = (c.answer request).1 ∧
      (f.answer request).2.Files (c.answer request).2 := by
  cases request with
  | change change => exact ⟨by simp [answer, Collection.answer, h.changed_eq], h.step change⟩
  | contains v => exact ⟨by simp [answer, Collection.answer, h.contains_eq], h⟩
  | elements => exact ⟨by simp [answer, Collection.answer, h.elements], h⟩

theorem Files.answers_eq (h : f.Files c) (requests : List Collection.Request) :
    f.answers requests = c.answers requests := by
  induction requests generalizing f c with
  | nil => rfl
  | cons request later ih =>
    obtain ⟨hanswer, hfiles⟩ := h.answer_eq request
    rw [answers, Collection.answers, hanswer, ih hfiles]

end Filing

/-! ## Rebuilding -/

namespace Collection

variable {start : Collection} {type : CollectionTy} {es : List Value}

/-- **Rebuilding is faithful, but for slots.** A list, a hash-backed set or a case-insensitive set
that started empty or with some elements is made again, after any changes, by its type and the
elements that it shows: with the same type, and the same elements in the same order. A list answers
all that is asked of it from then on as the other does, and so does a set, wherever equality is
settled and an equivalence among its elements and the values that it is asked about. The keys of a
case-insensitive set are those that the history of the other has left, and are enough to answer
by. -/
theorem rebuild_after_changes
    (hstart : start = new type ∧ es = [] ∨ ofElements type es = .ok start)
    (hd : start.discipline ≠ .sorted) (changes : List Change) :
    ∃ rebuilt, ofElements (start.after changes).type (start.after changes).elements = .ok rebuilt ∧
      rebuilt.type = (start.after changes).type ∧
      rebuilt.elements = (start.after changes).elements ∧
      (∀ requests : List Request,
        (start.discipline ≠ .sequence →
          EquivalenceOn (· == ·) (rebuilt.elements ++ requests.flatMap Request.values) ∧
            start.discipline.Settles (rebuilt.elements ++ requests.flatMap Request.values)) →
        rebuilt.answers requests = (start.after changes).answers requests) ∧
      (start.discipline = .caseless →
        (Filing.ofElements rebuilt.elements).entries =
          ((Filing.ofElements es).after changes).entries ∧
        ∀ requests, (Filing.ofElements rebuilt.elements).answers requests =
          rebuilt.answers requests) := by
  have hreached : (start.after changes).Reachable := by
    rcases hstart with ⟨rfl, -⟩ | hmade
    · exact (reachable_new type).after changes
    · exact (Reachable.ofElements hmade).after changes
  have hdiscipline : (start.after changes).discipline = start.discipline := by
    rw [discipline, type_after]
    rfl
  have hd' : (start.after changes).discipline ≠ .sorted := hdiscipline ▸ hd
  obtain ⟨hmade, htype, helements⟩ := hreached.ofElements_elements hd'
  refine ⟨_, hmade, htype, helements, fun requests hsame => ?_, fun hcaseless => ?_⟩
  · rw [helements] at hsame
    exact Alike.answers_eq ⟨htype, helements⟩ hd' (hreached.kept hd') fun hne =>
      (hsame (hdiscipline ▸ hne)).1
  · have hfiles : (Filing.ofElements es).Files start := by
      rcases hstart with ⟨rfl, rfl⟩ | hmade
      · exact Filing.files_new hcaseless
      · exact Filing.files_ofElements hmade hcaseless
    have hafter := hfiles.after changes
    have hrebuilt : (filled (start.after changes).type (start.after changes).elements).discipline =
        .caseless := (congrArg CollectionTy.discipline htype).trans (hdiscipline.trans hcaseless)
    refine ⟨?_, fun requests => ?_⟩
    · rw [helements, hafter.elements, Filing.entries_ofElements hafter.sound]
    · rw [helements]
      exact (Filing.files_ofElements hmade hrebuilt).answers_eq requests

/-- A set that has given up a spelling, taken a text beside the same character, and taken another
spelling of what it gave up. -/
theorem rebuild_after_changes_spellings :
    let type : CollectionTy := .concrete .caseInsensitiveSet
    let es : List Value := [.string "Ab", .char 'C', .string "AB"]
    let start : Collection := ⟨type, [.string "Ab", .char 'C'], [0, 0]⟩
    let changes : List Change :=
      [.remove (.stringBuilder "ab"), .insert (.string "C"), .insert (.string "aB")]
    let shown : List Value := [.char 'C', .string "C", .string "aB"]
    let requests : List Request :=
      [.change (.remove (.string "c")), .contains (.stringBuilder "AB"), .elements]
    ofElements type es = .ok start ∧ start.discipline ≠ .sorted ∧
      (start.after changes).elements = shown ∧
      EquivalenceOn (· == ·) (shown ++ requests.flatMap Request.values) ∧
      ∃ rebuilt, ofElements type shown = .ok rebuilt ∧ rebuilt.elements = shown ∧
        (Filing.ofElements rebuilt.elements).entries =
          [(.char 'c', .char 'C'), (.string "c", .string "C"), (.string "ab", .string "aB")] ∧
        rebuilt.answers requests = (start.after changes).answers requests := by
  intro type es start changes shown requests
  have hmade : ofElements type es = .ok start := rfl
  have hd : start.discipline ≠ .sorted := by decide
  have hsame : EquivalenceOn (· == ·) (shown ++ requests.flatMap Request.values) := by decide
  have hsettles : start.discipline.Settles (shown ++ requests.flatMap Request.values) := by
    decide +kernel
  obtain ⟨rebuilt, hrebuilt, -, helements, hanswers, hkeyed⟩ :=
    rebuild_after_changes (.inr hmade) hd changes
  have hshown : (start.after changes).elements = shown := rfl
  have hfiled : ((Filing.ofElements es).after changes).entries =
      [(.char 'c', .char 'C'), (.string "c", .string "C"), (.string "ab", .string "aB")] := rfl
  rw [type_after, hshown] at hrebuilt
  rw [hshown] at helements
  exact ⟨hmade, hd, hshown, hsame, rebuilt, hrebuilt, helements, (hkeyed rfl).1.trans hfiled,
    hanswers requests fun _ => helements.symm ▸ ⟨hsame, hsettles⟩⟩

theorem contains_eq_of_answers {c d : Collection} {change : Change} {v : Value}
    (h : d.answers [.change change, .contains v] = c.answers [.change change, .contains v]) :
    (d.step change).2.contains v = (c.step change).2.contains v := by
  simp only [answers, answer, List.cons.injEq, Answer.contains.injEq] at h
  exact h.2.1

/-- Of two sets, and a third that equals both of them: a hash-backed set that has taken the first
one out and in again shows it last, and gives it up for the third. The rebuilt set, which shows the
same, gives up the other. -/
theorem rebuild_forgets_slots :
    let first : Value := .collection (.concrete .treeSet) [Value.colorArray [1]]
    let second : Value := .collection (.concrete .treeSet) [Value.colorArray [0]]
    let third : Value := .collection (.concrete .treeSet) [Value.namesakeArray]
    let changes : List Change := [.insert first, .insert second, .remove first, .insert first]
    let c := (new (.concrete .hashSet)).after changes
    let requests : List Request := [.change (.remove third), .contains first]
    ∃ rebuilt, ofElements c.type c.elements = .ok rebuilt ∧
      rebuilt.type = c.type ∧ rebuilt.elements = c.elements ∧
      rebuilt.answers requests ≠ c.answers requests := by
  intro first second third changes c requests
  have hreached : c.Reachable := (reachable_new (.concrete .hashSet)).after changes
  obtain ⟨hmade, htype, helements⟩ := hreached.ofElements_elements (by decide +kernel)
  refine ⟨_, hmade, htype, helements, fun heq => ?_⟩
  have hkept : ((filled c.type c.elements).step (.remove third)).2.contains first = true := by
    decide +kernel
  have hgiven : (c.step (.remove third)).2.contains first = false := by decide +kernel
  have hsame := contains_eq_of_answers heq
  rw [hkept, hgiven] at hsame
  cases hsame

end Collection

end Recast
