import Collage.Proofs.Text.Bytes
import Collage.Scene.Mangle
import Mathlib.Data.List.Dedup

/-!
# Suffixes put in at their places

A suffix may be put in at several places of a source in two ways.  Going through the places from the
first to the last, what lies between them is copied and the suffix is written behind each piece
(`copied?`).  Going back from the last to the first, the suffix is put into the text where it stands,
which moves nothing that lies before (`inPlace?`).  `Mangle.apply` does neither: it goes through the
characters and asks at each if a span ends there.

All three come to the same text (`apply_inPlace`), and no piece is cut inside a character, if spans
end between characters.  As nothing is put in before the first place (`applyFrom_append`), both ways
are an induction on the places (`copied?_eq`, `inPlace?_eq`).
-/

open Collage.Gradient (cut? cut?_eq_some_iff)

namespace Collage
namespace Mangle

/-- The places in a source at which spans end, each once, the first one first. -/
def stops (source : List Char) (spans : List Span) : List ℕ :=
  (((spans.map fun (offset, length) => offset + length).filter (· ≤ byteSize source)).mergeSort).dedup

/-- What is put in behind a text. -/
def behind (suffix text : List Char) : List Char :=
  if text.getLast? = some '_' then suffix else '_' :: suffix

/-- The source from a place on, copied up to each of the next places, with the suffix there. -/
def copied? (source suffix : List Char) : ℕ → List ℕ → Option (List Char)
  | cursor, [] => piece? source cursor (byteSize source)
  | cursor, stop :: stops => do
    let kept ← piece? source cursor stop
    let before ← piece? source 0 stop
    let rest ← copied? source suffix stop stops
    return kept ++ (behind suffix before ++ rest)

/-- A text with more put in at a place. -/
def insertAt? (place : ℕ) (more text : List Char) : Option (List Char) := do
  let (front, back) ← cut? place text
  return front ++ (more ++ back)

/-- The source with the suffix put in at one place after the other. -/
def inPlace? (source suffix : List Char) (places : List ℕ) : Option (List Char) :=
  places.foldlM (fun text place => do
    let before ← piece? source 0 place
    insertAt? place (behind suffix before) text) source

variable {suffix : List Char} {ends : List ℕ}

/-! ### Places -/

theorem mem_stops {source : List Char} {spans : List Span} {place : ℕ} :
    place ∈ stops source spans ↔
      place ≤ byteSize source ∧ ∃ span ∈ spans, span.1 + span.2 = place := by
  simp [stops, and_comm]

theorem pairwise_stops (source : List Char) (spans : List Span) :
    (stops source spans).Pairwise (· < ·) := by
  have sorted : (stops source spans).Pairwise (· ≤ ·) :=
    (List.pairwise_mergeSort' (· ≤ ·) _).sublist (List.dedup_sublist _)
  exact (sorted.and (List.nodup_dedup _)).imp fun both => lt_of_le_of_ne both.1 both.2

theorem isPlace_of_mem_stops {source : List Char} {spans : List Span}
    (between : ∀ span ∈ spans, span.1 + span.2 ≤ byteSize source →
      IsPlace source (span.1 + span.2)) :
    ∀ stop ∈ stops source spans, IsPlace source stop := by
  intro stop inside
  obtain ⟨small, span, among, rfl⟩ := mem_stops.mp inside
  exact between span among small

/-! ### Texts behind each other -/

theorem applyFrom_congr (others : List ℕ) (text : List Char) (previous : Option Char) {offset : ℕ}
    (same : ∀ place, offset ≤ place → place ≤ offset + byteSize text →
      (place ∈ ends ↔ place ∈ others)) :
    applyFrom ends suffix previous offset text = applyFrom others suffix previous offset text := by
  have here : ends.contains offset = others.contains offset := by
    rw [Bool.eq_iff_iff, List.contains_iff_mem, List.contains_iff_mem]
    exact same offset le_rfl (Nat.le_add_right _ _)
  induction text generalizing previous offset with
  | nil => rw [applyFrom, applyFrom, here]
  | cons c rest ih =>
    rw [byteSize_cons] at same
    have later : ends.contains (offset + c.utf8Size) = others.contains (offset + c.utf8Size) := by
      rw [Bool.eq_iff_iff, List.contains_iff_mem, List.contains_iff_mem]
      exact same _ (by omega) (by omega)
    rw [applyFrom, applyFrom, here,
      ih (some c) (fun place low high => same place (by omega) (by omega)) later]

theorem applyFrom_append (ends : List ℕ) (suffix front back : List Char) (previous : Option Char)
    (offset : ℕ) (later : ∀ stop ∈ ends, offset + byteSize front ≤ stop) :
    applyFrom ends suffix previous offset (front ++ back) =
      front ++ applyFrom ends suffix (front.getLast?.or previous) (offset + byteSize front) back := by
  induction front generalizing previous offset with
  | nil => rfl
  | cons c front ih =>
    have positive := c.utf8Size_pos
    rw [byteSize_cons] at later ⊢
    have notHere : ends.contains offset = false := by
      rw [Bool.eq_false_iff, ne_eq, List.contains_iff_mem]
      intro here
      have := later offset here
      omega
    have last : ((c :: front).getLast?).or previous = front.getLast?.or (some c) := by
      cases last : front.getLast? <;> simp [List.getLast?_cons, last]
    rw [List.cons_append, applyFrom, notHere, if_neg Bool.false_ne_true,
      ih (some c) _ fun stop inside => by have := later stop inside; omega, last, Nat.add_assoc]
    rfl

theorem applyFrom_stop {stop : ℕ} (first : ∀ later ∈ ends, stop < later) (text : List Char)
    (previous : Option Char) :
    applyFrom (stop :: ends) suffix previous stop text =
      insertion suffix previous ++ applyFrom ends suffix previous stop text := by
  have notHere : ends.contains stop = false := by
    rw [Bool.eq_false_iff, ne_eq, List.contains_iff_mem]
    exact fun here => absurd (first stop here) (lt_irrefl _)
  cases text with
  | nil =>
    rw [applyFrom, applyFrom, notHere, if_pos (by simp), if_neg Bool.false_ne_true,
      List.append_nil]
  | cons c rest =>
    have positive := c.utf8Size_pos
    rw [applyFrom, applyFrom, notHere, if_pos (by simp), if_neg Bool.false_ne_true,
      applyFrom_congr ends rest (some c)]
    intro place low _
    rw [List.mem_cons, or_iff_right]
    omega

/-! ### Both ways -/

theorem copied?_eq {stops : List ℕ} (ascending : stops.Pairwise (· < ·)) (front text : List Char)
    (later : ∀ stop ∈ stops, byteSize front ≤ stop)
    (places : ∀ stop ∈ stops, IsPlace (front ++ text) stop) :
    copied? (front ++ text) suffix (byteSize front) stops =
      some (applyFrom stops suffix front.getLast? (byteSize front) text) := by
  induction stops generalizing front text with
  | nil =>
    have whole := applyFrom_append [] suffix text [] front.getLast? (byteSize front)
      (fun _ none => (List.not_mem_nil none).elim)
    have rest := piece?_append front text []
    rw [List.append_nil] at whole rest
    rw [copied?, rest, whole, applyFrom, if_neg (by simp), List.append_nil]
  | cons stop stops ih =>
    obtain ⟨first, others⟩ := List.pairwise_cons.mp ascending
    obtain ⟨middle, back, rfl, rfl⟩ :=
      (places stop List.mem_cons_self).behind (later stop List.mem_cons_self)
    have before := piece?_append [] (front ++ middle) back
    rw [List.nil_append, List.nil_append, byteSize_nil, List.append_assoc] at before
    have rest := ih others (front ++ middle) back (fun stop inside => (first stop inside).le)
      fun stop inside => by
        rw [List.append_assoc]
        exact places stop (List.mem_cons_of_mem _ inside)
    rw [List.append_assoc] at rest
    have kept := applyFrom_append (byteSize (front ++ middle) :: stops) suffix middle back
      front.getLast? (byteSize front) fun stop inside => by
        rw [← byteSize_append]
        rcases List.mem_cons.mp inside with rfl | inside
        · exact le_rfl
        · exact (first stop inside).le
    rw [copied?, piece?_append, before, rest, kept, ← byteSize_append, applyFrom_stop first,
      ← List.getLast?_append]
    rfl

theorem insertAt?_append (more front back : List Char) :
    insertAt? (byteSize front) more (front ++ back) = some (front ++ (more ++ back)) := by
  rw [insertAt?, cut?_eq_some_iff.mpr ⟨rfl, rfl⟩]
  rfl

theorem inPlace?_eq {stops : List ℕ} {source : List Char} (ascending : stops.Pairwise (· < ·))
    (places : ∀ stop ∈ stops, IsPlace source stop) :
    inPlace? source suffix stops.reverse = some (applyFrom stops suffix none 0 source) := by
  induction stops with
  | nil =>
    have whole := applyFrom_append [] suffix source [] none 0
      (fun _ none => (List.not_mem_nil none).elim)
    rw [List.append_nil] at whole
    rw [whole, applyFrom, if_neg (by simp), List.append_nil]
    rfl
  | cons stop stops ih =>
    obtain ⟨first, others⟩ := List.pairwise_cons.mp ascending
    have later := ih others fun stop inside => places stop (List.mem_cons_of_mem _ inside)
    obtain ⟨front, back, rfl, rfl⟩ := places stop List.mem_cons_self
    have before := piece?_append [] front back
    rw [List.nil_append, List.nil_append, byteSize_nil] at before
    have moved := applyFrom_append stops suffix front back none 0
      fun stop inside => by
        rw [Nat.zero_add]
        exact (first stop inside).le
    have kept := applyFrom_append (byteSize front :: stops) suffix front back none 0
      fun stop inside => by
        rw [Nat.zero_add]
        rcases List.mem_cons.mp inside with rfl | inside
        · exact le_rfl
        · exact (first stop inside).le
    rw [Nat.zero_add, Option.or_none] at moved kept
    unfold inPlace? at later ⊢
    rw [List.reverse_cons, List.foldlM_append, later, moved, kept, applyFrom_stop first]
    simp only [List.foldlM_cons, List.foldlM_nil, Option.bind_eq_bind, Option.bind_some, before,
      insertAt?_append]
    rfl

/-- Where spans end is all that matters of them. -/
theorem toList_apply (source : String) (spans : List Span) (suffix : String) :
    (apply source spans suffix).toList =
      applyFrom (stops source.toList spans) suffix.toList none 0 source.toList := by
  rw [apply, String.toList_ofList]
  refine applyFrom_congr _ source.toList none fun place _ small => ?_
  rw [Nat.zero_add] at small
  rw [mem_stops, List.mem_map, and_iff_right small]

/-- **All ways of putting a suffix in come to the same text**, where spans that end in the source
end between characters: going over its characters, copying from place to place, and putting the
suffix into the text, the last place first. -/
theorem apply_inPlace (source : String) (spans : List Span) (suffix : String)
    (between : ∀ span ∈ spans, span.1 + span.2 ≤ byteSize source.toList →
      IsPlace source.toList (span.1 + span.2)) :
    inPlace? source.toList suffix.toList (stops source.toList spans).reverse =
        some (apply source spans suffix).toList ∧
      copied? source.toList suffix.toList 0 (stops source.toList spans) =
        some (apply source spans suffix).toList := by
  have ascending := pairwise_stops source.toList spans
  have places := isPlace_of_mem_stops between
  rw [toList_apply]
  exact ⟨inPlace?_eq ascending places,
    copied?_eq ascending [] source.toList (fun stop _ => Nat.zero_le stop) places⟩

/-- Spans that are not in order, overlap, end at one place, behind an underscore or beyond the
source. -/
theorem apply_inPlace_overlapping :
    (∀ span ∈ [(4, 1), (2, 2), (0, 1), (9, 9), (3, 1)], span.1 + span.2 ≤ byteSize "f é_".toList →
      IsPlace "f é_".toList (span.1 + span.2)) ∧
    inPlace? "f é_".toList "s1".toList
        (stops "f é_".toList [(4, 1), (2, 2), (0, 1), (9, 9), (3, 1)]).reverse =
      some "f_s1 é_s1_s1".toList := by
  have between : ∀ span ∈ [(4, 1), (2, 2), (0, 1), (9, 9), (3, 1)],
      span.1 + span.2 ≤ byteSize "f é_".toList → IsPlace "f é_".toList (span.1 + span.2) := by
    decide
  have text : (apply "f é_" [(4, 1), (2, 2), (0, 1), (9, 9), (3, 1)] "s1").toList =
      "f_s1 é_s1_s1".toList := by
    decide
  rw [← text]
  exact ⟨between, (apply_inPlace "f é_" _ "s1" between).1⟩

end Mangle
end Collage
