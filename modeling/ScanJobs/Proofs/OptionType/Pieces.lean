import ScanJobs.OptionType.Flat
import ScanJobs.Proofs.Text.Solid

/-! # Texts between commas

A text is found again between commas if it is a `Piece`. Whatever a text is taken apart into is one
(`piece_of_mem_pieces`), and texts put together are taken apart into themselves exactly if all of
them are pieces (`pieces_join_eq_iff`). -/

namespace ScanJobs.OptionType

open Text

/-- **A piece**: a text without blanks at its ends that is not blank and holds no comma. -/
structure Piece (s : String) : Prop where
  solid : Solid s
  comma : ',' ∉ s.toList

theorem piece_of_mem_pieces {s p : String} (h : p ∈ pieces s) : Piece p := by
  obtain ⟨q, hq, rfl⟩ := List.mem_map.mp h
  obtain ⟨hsplit, hblank⟩ := List.mem_filter.mp hq
  refine ⟨solid_strip (by simpa using hblank), fun hcomma => ?_⟩
  exact not_mem_of_mem_split hsplit (mem_of_mem_strip hcomma)

/-- Pieces stay what they are when blank texts are dropped and the others stripped. -/
theorem strip_pieces {ps : List String} (h : ∀ p ∈ ps, Piece p) :
    (ps.filter fun p => !isBlank p).map strip = ps := by
  have hfilter : (ps.filter fun p => !isBlank p) = ps :=
    List.filter_eq_self.mpr fun p hp => by rw [(h p hp).solid.isBlank_eq]; rfl
  rw [hfilter]
  calc ps.map strip = ps.map id := List.map_congr_left fun p hp => (h p hp).solid.strip_eq
    _ = ps := List.map_id ps

theorem pieces_join {ps : List String} (h : ∀ p ∈ ps, Piece p) : pieces (join ',' ps) = ps := by
  by_cases hne : ps = []
  · subst hne
    rfl
  · rw [pieces, split_join hne fun p hp => (h p hp).comma, strip_pieces h]

/-- **Texts are found again between commas exactly if they are pieces.** -/
theorem pieces_join_eq_iff {ps : List String} :
    pieces (join ',' ps) = ps ↔ ∀ p ∈ ps, Piece p :=
  ⟨fun h _ hp => piece_of_mem_pieces (h ▸ hp), pieces_join⟩

end ScanJobs.OptionType
