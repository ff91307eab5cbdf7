import Rsdns.Hosts.History

/-!
# Entries about a query

Only the entries about the query, or about a domain above it, have a say in its lookup.
-/

namespace Rsdns.Plugins

open Common

/-- The domain of the entry is the text or follows a dot at its end. -/
def HostEntry.IsAbout (text : Text) (entry : HostEntry) : Prop :=
  LabelKey.Covers '.' entry.domain text

instance (text : Text) (entry : HostEntry) : Decidable (entry.IsAbout text) :=
  inferInstanceAs (Decidable (LabelKey.Covers '.' entry.domain text))

def entriesAbout (entries : List HostEntry) (text : Text) : List HostEntry :=
  entries.filter fun entry => entry.IsAbout text

/-- What a lookup says of the text that is searched for. -/
def answerOf (entries : List HostEntry) (text : Text) : Lookup :=
  ((governing entries text).map (lookupBy entries)).getD .Miss

/-! ### Entries left out -/

/-- Entries can be left out before or after, if those of a spelling stay together. -/
theorem introductions_filter {keep : HostEntry → Bool}
    (together : ∀ {earlier later : HostEntry}, earlier.Extends later → keep earlier = keep later)
    (entries : List HostEntry) :
    introductions (entries.filter keep) = (introductions entries).filter keep := by
  induction entries with
  | nil => rfl
  | cons entry entries inductionHypothesis =>
      cases kept : keep entry with
      | true =>
          rw [List.filter_cons_of_pos kept, introductions, introductions, inductionHypothesis,
            List.filter_cons_of_pos kept, List.filter_comm]
      | false =>
          rw [List.filter_cons_of_neg (by simp [kept]), introductions, inductionHypothesis,
            List.filter_cons_of_neg (by simp [kept]), List.filter_filter]
          refine List.filter_congr fun later _ => ?_
          -- what the lost entry keeps out of the trie is lost with it
          by_cases again : entry.Extends later
          · simp [again, ← together again, kept]
          · simp [again]

theorem lastAbout_filter {keep : HostEntry → Bool} {domain : Text}
    (kept : ∀ entry : HostEntry, entry.domain = domain → keep entry = true)
    (entries : List HostEntry) :
    lastAbout (entries.filter keep) domain = lastAbout entries domain := by
  rw [lastAbout, lastAbout, ← List.filter_reverse, List.find?_filter]
  congr 1
  funext entry
  by_cases about : entry.domain = domain
  · simp [about, kept entry about]
  · simp [about]

theorem addressesOf_filter {keep : HostEntry → Bool} {spelling : Text}
    (kept : ∀ entry : HostEntry, entry.domain = Text.trimMatches '.' spelling →
      keep entry = true) (entries : List HostEntry) :
    addressesOf (entries.filter keep) spelling = addressesOf entries spelling := by
  rw [addressesOf, addressesOf, List.filterMap_filter]
  refine List.filterMap_congr fun entry _ => ?_
  cases entry with
  | aliasName word original named => simp [HostEntry.addressFor]
  | address word ip =>
      by_cases own : trimWildcards word = spelling
      · have about := kept (.address word ip) (congrArg (Text.trimMatches '.') own)
        simp [about]
      · simp [HostEntry.addressFor, own]

/-! ### The entries about a text -/

theorem lastAbout_introductions_entriesAbout (entries : List HostEntry) {domain text : Text}
    (covers : LabelKey.Covers '.' domain text) :
    lastAbout (introductions (entriesAbout entries text)) domain =
      lastAbout (introductions entries) domain := by
  rw [entriesAbout, introductions_filter, lastAbout_filter]
  · rintro entry rfl
    exact decide_eq_true covers
  · intro earlier later again
    rw [decide_eq_decide, HostEntry.IsAbout, HostEntry.IsAbout, again.domain_eq]

theorem governing_entriesAbout (entries : List HostEntry) (text : Text) :
    governing (entriesAbout entries text) text = governing entries text := by
  ext entry
  rw [governing_eq_some_iff, governing_eq_some_iff]
  refine exists_congr fun domain => and_congr_right fun _ => and_congr_right fun covers => ?_
  rw [lastAbout_introductions_entriesAbout entries covers]
  refine and_congr_right fun _ => forall_congr' fun longer => forall_congr' fun above => ?_
  rw [lastAbout_introductions_entriesAbout entries above]

/-- A lookup depends on the entries about its text only. -/
theorem answerOf_entriesAbout (entries : List HostEntry) (text : Text) :
    answerOf (entriesAbout entries text) text = answerOf entries text := by
  unfold answerOf
  rw [governing_entriesAbout]
  cases governs : governing entries text with
  | none => rfl
  | some entry =>
      cases entry with
      | aliasName word original named => rfl
      | address word ip =>
          obtain ⟨domain, _, covers, last, _⟩ := governing_eq_some_iff.mp governs
          have own := (of_lastAbout last).2
          have same : addressesOf (entriesAbout entries text) (trimWildcards word) =
              addressesOf entries (trimWildcards word) := by
            apply addressesOf_filter
            intro entry about
            have covered : LabelKey.Covers '.' entry.domain text := by
              rw [about, ← HostEntry.domain_address word ip, own]
              exact covers
            exact decide_eq_true covered
          simp only [Option.map_some, lookupBy, same]

theorem answerOf_congr {before after : List HostEntry} {text : Text}
    (same : entriesAbout before text = entriesAbout after text) :
    answerOf before text = answerOf after text := by
  rw [← answerOf_entriesAbout before, same, answerOf_entriesAbout]

theorem answerOf_eq_miss {entries : List HostEntry} {text : Text}
    (unnamed : entriesAbout entries text = []) : answerOf entries text = .Miss := by
  rw [← answerOf_entriesAbout, unnamed, answerOf,
    governing_eq_none_of_uncovered fun _ member => absurd member List.not_mem_nil]
  rfl

end Rsdns.Plugins
