/-!
# Similar words

How alike two words are, to guess what a misspelt word was meant to be. Characters that occur in
both words at nearby places are shared, each with one partner only. The similarity is the mean of
three shares: of the first word and of the second word that is shared, and of the shared characters
that come in the same order.

## Main definitions

* `Text.partners`: the shared characters of two words.
* `Text.similarity`: the similarity of two words, between zero and one.
* `Text.similarTo`: the words of a list that are similar to a given one, most similar one last.
-/

namespace FlowEngine

namespace Text

/-- How far apart the places of shared characters may be, given the length of the longer word. -/
def reach (longer : Nat) : Nat := longer / 2 - 1

/-- The first place in a word that holds a character, is within reach of another place, and is not
taken. -/
def partner? (reach : Nat) (word : List Char) (taken : List Nat) (c : Char) (place : Nat) :
    Option Nat :=
  (word.zipIdx.find? fun (d, j) =>
    d == c && place ≤ j + reach && j ≤ place + reach && !taken.contains j).map Prod.snd

/-- The shared characters of two words, in the order of the first, with their places in the
second. The first word is given with its places. -/
def partnersFrom (reach : Nat) (word : List Char) :
    List (Char × Nat) → List Nat → List (Char × Nat)
  | [], _ => []
  | (c, place) :: rest, taken =>
    match partner? reach word taken c place with
    | some j => (c, j) :: partnersFrom reach word rest (j :: taken)
    | none => partnersFrom reach word rest taken

/-- The shared characters of two words, in the order of the first, with their places in the
second. -/
def partners (a b : List Char) : List (Char × Nat) :=
  partnersFrom (reach (max a.length b.length)) b a.zipIdx []

/-- How many of the shared characters come in another order in the second word. -/
def displaced (shared : List (Char × Nat)) : Nat :=
  let sorted := shared.mergeSort fun x y => x.2 ≤ y.2
  (shared.zip sorted).countP fun (x, y) => x.1 != y.1

/-- The similarity of two words. -/
def similarity (a b : List Char) : Float :=
  if a.isEmpty && b.isEmpty then 1
  else
    let shared := partners a b
    if shared.isEmpty then 0
    else
      let inOrder := shared.length - displaced shared / 2
      let share (n m : Nat) : Float := Float.ofNat n / Float.ofNat m
      (share shared.length a.length + share shared.length b.length +
        share inOrder shared.length) / 3

/-- The similarity above which words count as similar. -/
def similarityBound : Float := 0.7

/-- The words that are similar to a given one, most similar one last. -/
def similarTo (word : String) (words : List String) : List String :=
  let scored := words.map fun w => (similarity word.toList w.toList, w)
  let similar := scored.filter fun s => similarityBound < s.1
  (similar.mergeSort fun x y => x.1 ≤ y.1).map Prod.snd

/-- The word that is most similar to a given one, if there is a similar one. -/
def mostSimilar? (word : String) (words : List String) : Option String :=
  (similarTo word words).getLast?

end Text

end FlowEngine
