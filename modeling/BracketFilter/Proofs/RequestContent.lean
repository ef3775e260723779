import BracketFilter.Proofs.BindingReads
import BracketFilter.Proofs.KeySpelling
import Mathlib.Data.List.Induction
import Mathlib.Logic.Relation

/-!
# A request is what it holds for its keys

* `Query.valuesFor` — the values that a sequence of pairs gives for a key, in their order.
* `Query.SameContent` — two sequences of pairs give the same values for each key.
* `Query.Edit` — a change of a sequence of pairs that leaves the request as it is: pairs of
  different keys change places, a key is spelled in another way, or a pair that has no key is left
  out.

Principal results: `find?_ofPairs` — a key's value is its values joined with commas;
`ofPairs_same_content` — sequences of pairs with the same content are one request for every lookup
and every binding, and edits keep the content.
-/

set_option autoImplicit false

namespace BracketFilter

open BracketFilter.Text

namespace Query

/-! ## What a sequence of pairs stores -/

/-- The values that a sequence of pairs gives for a key, in their order. -/
def valuesFor (pairs : List (String × String)) (key : Key) : List String :=
  (pairs.filter fun pair => Key.parse? pair.1 = some key).map Prod.snd

/-- Values as they are stored together: joined with commas, if there are any. -/
def joined (values : List String) : Option String :=
  if values = [] then none else some (",".intercalate values)

theorem joined_append_singleton (values : List String) (value : String) :
    joined (values ++ [value]) =
      some ((joined values).elim value fun stored => stored ++ "," ++ value) := by
  unfold joined
  by_cases h : values = []
  · simp [h]
  · simp [h, String.intercalate_append_of_ne_nil]

theorem ofPairs_append_singleton (pairs : List (String × String)) (pair : String × String) :
    ofPairs (pairs ++ [pair]) = (ofPairs pairs).insertRaw pair := by
  simp [ofPairs]

/-- **A key's value is its values, joined with commas in the order in which they came.** -/
theorem find?_ofPairs (pairs : List (String × String)) (key : Key) :
    (ofPairs pairs).find? key = joined (valuesFor pairs key) := by
  induction pairs using List.reverseRecOn with
  | nil => rfl
  | append_singleton pairs pair ih =>
    rw [ofPairs_append_singleton]
    have hvalues : valuesFor (pairs ++ [pair]) key =
        valuesFor pairs key ++ if Key.parse? pair.1 = some key then [pair.2] else [] := by
      unfold valuesFor
      by_cases h : Key.parse? pair.1 = some key <;> simp [h]
    rw [hvalues]
    unfold insertRaw
    cases hparse : Key.parse? pair.1 with
    | none => simp [ih]
    | some k =>
      by_cases hk : key = k
      · subst hk
        simp only [find?_insert, if_true, ih, joined_append_singleton]
      · have hne : ¬ k = key := fun h => hk h.symm
        simp only [find?_insert, if_neg hk, ih, Option.some.injEq, if_neg hne, List.append_nil]

/-- Two sequences of pairs give the same values for each key. -/
def SameContent (pairs pairs' : List (String × String)) : Prop :=
  ∀ key, valuesFor pairs key = valuesFor pairs' key

/-! ## Queries that store the same values -/

section Same

variable {q q' : Query} (h : ∀ key, q.find? key = q'.find? key)

include h

theorem mem_keys_congr (key : Key) : key ∈ q.keys ↔ key ∈ q'.keys := by
  rw [← not_iff_not, ← find?_eq_none_iff, ← find?_eq_none_iff, h key]

theorem size_congr : q.size = q'.size := by
  have hperm : q.keys.Perm q'.keys :=
    (List.perm_ext_iff_of_nodup q.nodup q'.nodup).2 (mem_keys_congr h)
  simpa [keys, size] using hperm.length_eq

theorem get?_congr (path : Path) (op : Option Operation) : q.get? path op = q'.get? path op := by
  have hfind : q.find? = q'.find? := funext h
  simp only [get?, hfind]

theorem reaches_congr (path : Path) : q.reaches path = q'.reaches path := by
  rw [Bool.eq_iff_iff, reaches_iff, reaches_iff]
  simp only [mem_keys_congr h]

/-- Queries that store the same values are alike at every path. -/
theorem alikeBelow_of_find? (path : Path) : q.AlikeBelow q' path where
  get? := fun p op _ => get?_congr h p op
  reaches := fun p _ => reaches_congr h p

end Same

/-! ## Edits -/

/-- A change of a sequence of pairs that leaves the request as it is. -/
inductive Edit : List (String × String) → List (String × String) → Prop
  | swap {before after : List (String × String)} {a b : String × String}
      (apart : Key.parse? a.1 ≠ Key.parse? b.1) :
      Edit (before ++ a :: b :: after) (before ++ b :: a :: after)
  | respell {before after : List (String × String)} {raw raw' value : String}
      (same : Key.Respelled raw raw') :
      Edit (before ++ (raw, value) :: after) (before ++ (raw', value) :: after)
  | malformed {before after : List (String × String)} {pair : String × String}
      (noKey : Key.parse? pair.1 = none) : Edit (before ++ pair :: after) (before ++ after)

theorem Edit.sameContent {pairs pairs' : List (String × String)} (h : Edit pairs pairs') :
    SameContent pairs pairs' := by
  intro key
  unfold valuesFor
  cases h with
  | swap apart =>
    rename_i before after a b
    -- At most one of the two pairs is of the key.
    have hone : ¬ (Key.parse? a.1 = some key ∧ Key.parse? b.1 = some key) := by
      rintro ⟨ha, hb⟩
      exact apart (ha.trans hb.symm)
    by_cases ha : Key.parse? a.1 = some key
    · have hb : ¬ Key.parse? b.1 = some key := fun hb => hone ⟨ha, hb⟩
      simp [ha, hb]
    · simp [List.filter_cons, ha]
  | respell same =>
    have hparse := Key.parse?_respelled same
    simp only [List.filter_append, List.filter_cons, hparse]
    split <;> simp
  | malformed noKey => simp [noKey]

theorem sameContent_of_edits {pairs pairs' : List (String × String)}
    (h : Relation.EqvGen Edit pairs pairs') : SameContent pairs pairs' := by
  induction h with
  | rel _ _ h => exact h.sameContent
  | refl _ => exact fun _ => rfl
  | symm _ _ _ ih => exact fun key => (ih key).symm
  | trans _ _ _ _ _ ih ih' => exact fun key => (ih key).trans (ih' key)

/-- **A request is what it holds for its keys.** Sequences of pairs with the same content have as
many keys, give one answer to every lookup and to the question whether a path is reached, and are
bound alike, to one tree or with one error; and edits keep the content. -/
theorem ofPairs_same_content :
    (∀ pairs pairs', SameContent pairs pairs' →
      (ofPairs pairs).size = (ofPairs pairs').size ∧
      (∀ path op, (ofPairs pairs).get? path op = (ofPairs pairs').get? path op) ∧
      (∀ path, (ofPairs pairs).reaches path = (ofPairs pairs').reaches path) ∧
      ∀ (ι : Type) (b : Binder) (shapes : ι → Shape ι) (shape : Shape ι) (path : Path),
        b.build shapes shape (ofPairs pairs) path =
          b.build shapes shape (ofPairs pairs') path) ∧
    ∀ pairs pairs', Relation.EqvGen Edit pairs pairs' → SameContent pairs pairs' := by
  refine ⟨fun pairs pairs' same => ?_, fun _ _ => sameContent_of_edits⟩
  have hfind (key : Key) : (ofPairs pairs).find? key = (ofPairs pairs').find? key := by
    rw [find?_ofPairs, find?_ofPairs, same key]
  refine ⟨size_congr hfind, get?_congr hfind, reaches_congr hfind, fun ι b shapes shape path => ?_⟩
  exact Binder.buildNode_congr b shapes (fun _ _ => alikeBelow_of_find? hfind _) 0

/-- Two values of one key, and a key on the first part. -/
def tagPairs : List (String × String) :=
  [("tags[in]", "a"), ("parts[0][title]", "x"), ("tags[in]", "b")]

/-- The same request with its pairs in another order, other spellings, and text that is no key. -/
def tagPairsRespelled : List (String × String) :=
  [("Parts[00][title]", "x"), ("tags[in]", "a"), ("age[", "?"), ("TAGS[in]", "b")]

theorem ofPairs_same_content_tags :
    Relation.EqvGen Edit tagPairs tagPairsRespelled ∧ SameContent tagPairs tagPairsRespelled ∧
      (ofPairs tagPairsRespelled).size = 2 ∧
      (ofPairs tagPairsRespelled).get? [.field "tags"] (some .inside) = some "a,b" := by
  have hzeros : Key.Respelled "parts[0][title]" "parts[00][title]" := by
    have hnumber : readNat? ['0'] = some 0 := by decide
    have hzero : Key.ZerosApart ['0'] ['0', '0'] :=
      @Key.ZerosApart.zeros ['0'] 0 0 1 hnumber (by decide)
    refine @Key.Respelled.zeros "parts".toList _ [['0'], "title".toList] _
      (.cons .same (.cons hzero (.cons .same .nil))) ?_
    intro part hpart
    simp only [List.mem_cons, List.not_mem_nil, or_false] at hpart
    rcases hpart with rfl | rfl | rfl <;> exact ⟨by simp, by simp [Key.isBracket]⟩
  have hedits : Relation.EqvGen Edit tagPairs tagPairsRespelled := by
    have hswap : Edit tagPairs
        [("parts[0][title]", "x"), ("tags[in]", "a"), ("tags[in]", "b")] :=
      @Edit.swap [] _ _ _ (by decide +kernel)
    have hindex : Edit [("parts[0][title]", "x"), ("tags[in]", "a"), ("tags[in]", "b")]
        [("parts[00][title]", "x"), ("tags[in]", "a"), ("tags[in]", "b")] :=
      @Edit.respell [] _ _ _ _ hzeros
    have hhead : Edit [("parts[00][title]", "x"), ("tags[in]", "a"), ("tags[in]", "b")]
        [("Parts[00][title]", "x"), ("tags[in]", "a"), ("tags[in]", "b")] :=
      @Edit.respell [] _ _ _ _ (.letters (by decide))
    have hletters : Edit [("Parts[00][title]", "x"), ("tags[in]", "a"), ("tags[in]", "b")]
        [("Parts[00][title]", "x"), ("tags[in]", "a"), ("TAGS[in]", "b")] :=
      @Edit.respell [_, _] _ _ _ _ (.letters (by decide))
    have hmalformed : Edit tagPairsRespelled
        [("Parts[00][title]", "x"), ("tags[in]", "a"), ("TAGS[in]", "b")] :=
      @Edit.malformed [_, _] _ _ (by decide +kernel)
    exact .trans _ _ _ (.rel _ _ hswap) (.trans _ _ _ (.rel _ _ hindex)
      (.trans _ _ _ (.rel _ _ hhead) (.trans _ _ _ (.rel _ _ hletters)
        (.symm _ _ (.rel _ _ hmalformed)))))
  have hsame := ofPairs_same_content.2 _ _ hedits
  obtain ⟨hsize, hget, -, -⟩ := ofPairs_same_content.1 _ _ hsame
  refine ⟨hedits, hsame, ?_, ?_⟩
  · rw [← hsize]
    decide +kernel
  · rw [← hget]
    decide +kernel

end Query

end BracketFilter
