import Mathlib.Data.List.Lex
import Mathlib.Data.Prod.Lex
import Redisdal.Lib.Ranking
import Redisdal.Theorems.ZsetScores

/-! # Scores

What a server knows of the scores of a sorted set: how to read and write them, how to add them, and in which order they
put its members. -/

namespace Redisdal

/-- A double that is a number. -/
structure Score where
  value : Double
  isNumber : value.isNaN = false
deriving DecidableEq

def Score.ofDouble? (d : Double) : Option Score := if h : d.isNaN = false then some ⟨d, h⟩ else none

/-- Where a score stands among others, the infinite ones included. Both zeros stand in one place. -/
def Score.place (score : Score) : Int :=
  let bits : Int := score.value.bits.toNat
  if bits < 2 ^ 63 then bits else 2 ^ 63 - bits

/-- How a server reads, writes and adds scores. -/
class ServerScores where
  parse : Bytes → Option Score
  print : Score → Bytes
  /-- The sum, unless it is not a number. -/
  add : Score → Score → Option Score

/-- Members with doubles that are all numbers. -/
def readScores {M : Type} (l : List (M × Double)) : Option (List (M × Score)) :=
  l.mapM fun e => (Score.ofDouble? e.2).map (e.1, ·)

/-- Scores pass from the platform to the server and back; the server refuses NaN. -/
structure ServerScores.Passes [ServerScores] (platform : Platform) : Prop where
  read : ∀ d, parse (platform.toCharsDouble d) = Score.ofDouble? d
  written : ∀ score, @doubleFromString platform (print score) = .ok score.value

/-- What an increment makes of the score of a member that may have none. -/
def Score.increment [ServerScores] (score : Option Score) (delta : Score) : Option Score :=
  score.elim (some delta) (ServerScores.add · delta)

def notAFloat : Bytes := "ERR value is not a valid float"

def notANumber : Bytes := "ERR resulting score is not a number (NaN)"

/-! ### Reading scores -/

theorem Score.value_injective : Function.Injective Score.value := fun a b h => by
  cases a
  cases b
  cases h
  rfl

theorem Score.ofDouble?_eq_some_iff {d : Double} {score : Score} :
    Score.ofDouble? d = some score ↔ score.value = d := by
  unfold Score.ofDouble?
  constructor
  · intro h
    split at h
    · cases h
      rfl
    · cases h
  · rintro rfl
    exact dif_pos score.isNumber

section Reading
variable {M N : Type}

theorem readScores_eq_some_iff {l : List (M × Double)} {scores : List (M × Score)} :
    readScores l = some scores ↔ scores.map (Prod.map id Score.value) = l := by
  induction l generalizing scores with
  | nil =>
    rw [List.map_eq_nil_iff]
    exact Option.some_inj.trans eq_comm
  | cons e l ih =>
    unfold readScores at ih ⊢
    rw [List.mapM_cons, List.map_eq_cons_iff]
    constructor
    · intro h
      obtain ⟨first, hfirst, h⟩ := Option.bind_eq_some_iff.mp h
      obtain ⟨rest, hrest, h⟩ := Option.bind_eq_some_iff.mp h
      obtain ⟨score, hscore, rfl⟩ := Option.map_eq_some_iff.mp hfirst
      cases h
      exact ⟨_, rest, rfl, Prod.ext rfl (Score.ofDouble?_eq_some_iff.mp hscore), ih.mp hrest⟩
    · rintro ⟨first, rest, rfl, rfl, hrest⟩
      have hscore : Score.ofDouble? first.2.value = some first.2 := Score.ofDouble?_eq_some_iff.mpr rfl
      rw [ih.mpr hrest]
      show ((Score.ofDouble? first.2.value).map (first.1, ·) >>= _) = _
      rw [hscore]
      rfl

theorem readScores_map (f : M → N) (l : List (M × Double)) :
    readScores (l.map (Prod.map f id)) = (readScores l).map (List.map (Prod.map f id)) := by
  unfold readScores
  induction l with
  | nil => rfl
  | cons e l ih =>
    rw [List.map_cons, List.mapM_cons, List.mapM_cons, ih, Prod.map_snd, id]
    cases Score.ofDouble? e.2 with
    | none => rfl
    | some score => cases l.mapM fun e => (Score.ofDouble? e.2).map (e.1, ·) <;> rfl

/-- The order makes no difference. -/
theorem exists_readScores_of_perm {l l' : List (M × Double)} (h : l'.Perm l) {scores : List (M × Score)}
    (hscores : readScores l = some scores) : ∃ scores', readScores l' = some scores' ∧ scores'.Perm scores := by
  have hinjective : Function.Injective (Prod.map id Score.value : M × Score → M × Double) :=
    Function.injective_id.prodMap Score.value_injective
  cases readScores_eq_some_iff.mp hscores
  have hrange : l' ∈ Set.range (List.map (Prod.map id Score.value : M × Score → M × Double)) := by
    rw [Set.range_list_map]
    intro e he
    obtain ⟨score, -, rfl⟩ := List.mem_map.mp (h.mem_iff.mp he)
    exact ⟨score, rfl⟩
  obtain ⟨scores', rfl⟩ := hrange
  exact ⟨scores', readScores_eq_some_iff.mpr rfl, (List.map_perm_map_iff hinjective).mp h⟩

end Reading

/-! ### Rankings -/

/-- Members with equal scores stand in the order of their bytes. -/
def scoreRank (e : Bytes × Score) : Lex (Int × List Nat) := toLex (e.2.place, e.1.map UInt8.toNat)

/-- The members of a sorted set from the least to the greatest. -/
def ranking (z : UnorderedMap Bytes Score) : List (Bytes × Score) := Ranking.sort scoreRank z.pairs

/-- The text of a member. -/
def Template.memberText {K V : Type} (tpl : Template K V) (member : V) : Bytes :=
  (tpl.serializeValue member).toOption.getD []

/-- The scores in the order in which the server ranks them. -/
def Ranked {K V : Type} (tpl : Template K V) [DecidableEq V] (scores : Finmap fun _ : V => Score)
    (l : List (V × Score)) : Prop :=
  Ranking.Ranks (fun e => scoreRank (tpl.memberText e.1, e.2)) {e | scores.lookup e.1 = some e.2} l

section Rankings
open UnorderedMap
variable {K V : Type} {tpl : Template K V} {encV : V → Bytes}

theorem memberText_eq (hV : Encodes tpl.valueSerializer encV) (member : V) : tpl.memberText member = encV member := by
  have hserialize : tpl.serializeValue member = .ok (encV member) := hV.serialize member
  rw [Template.memberText, hserialize]
  rfl

theorem ranks_ranking (z : UnorderedMap Bytes Score) : Ranking.Ranks scoreRank {e | e ∈ z.pairs} (ranking z) := by
  refine Ranking.ranks_sort (List.Nodup.of_map (fun r => (ofLex r).2) ?_)
  have hbytes : Function.Injective UInt8.toNat := fun _ _ => UInt8.toNat_inj.mp
  have hmembers := (nodup_pairs z).map (List.map_injective_iff.mpr hbytes)
  rwa [List.map_map] at hmembers ⊢

variable [DecidableEq V]

/-- The ranking on the server is that of the encoded members. -/
theorem exists_ranked (hV : Encodes tpl.valueSerializer encV) {z : UnorderedMap Bytes Score}
    {scores : Finmap fun _ : V => Score} (h : Represents encV id z scores) :
    ∃ l, ranking z = l.map (Prod.map encV id) ∧ Ranked tpl scores l := by
  obtain ⟨l, hl, -, -⟩ := h.exists_decoded hV.injective Function.injective_id (Ranking.sort_perm scoreRank z.pairs)
  refine ⟨l, hl.symm, ?_⟩
  have hranks : Ranking.Ranks scoreRank {e | e ∈ z.pairs} (l.map (Prod.map encV id)) := hl ▸ ranks_ranking z
  have hdecoded := hranks.of_map (hV.injective.prodMap Function.injective_id)
  have hentries : Set.preimage (Prod.map encV id) {e | e ∈ z.pairs} = {e | scores.lookup e.1 = some e.2} := by
    ext e
    show (encV e.1, e.2) ∈ z.pairs ↔ scores.lookup e.1 = some e.2
    rw [mem_pairs, h.lookup, Option.map_id]
    rfl
  have hrank : (fun e => scoreRank (tpl.memberText e.1, e.2)) = scoreRank ∘ Prod.map encV id :=
    funext fun e => by rw [memberText_eq hV]; rfl
  rw [Ranked, hrank, ← hentries]
  exact hdecoded

/-- There is a ranking of any scores. -/
theorem exists_ranking (hV : Encodes tpl.valueSerializer encV) (scores : Finmap fun _ : V => Score) :
    ∃ l, Ranked tpl scores l := by
  induction scores using Finmap.induction_on with
  | _ m =>
    have hinjective : Function.Injective fun member : V => (tpl.memberText member).map UInt8.toNat := by
      have hbytes : Function.Injective UInt8.toNat := fun _ _ => UInt8.toNat_inj.mp
      have htexts : tpl.memberText = encV := funext fun member => memberText_eq hV member
      rw [htexts]
      exact (List.map_injective_iff.mpr hbytes).comp hV.injective
    have hranks : ((pairs m).map fun e => scoreRank (tpl.memberText e.1, e.2)).Nodup := by
      refine List.Nodup.of_map (fun r => (ofLex r).2) ?_
      have hmembers := (nodup_pairs m).map hinjective
      rwa [List.map_map] at hmembers ⊢
    have hentries : {e | e ∈ pairs m} = {e | (AList.toFinmap m).lookup e.1 = some e.2} := by
      ext e
      exact mem_pairs
    have hsorted := Ranking.ranks_sort hranks
    rw [hentries] at hsorted
    exact ⟨_, hsorted⟩

end Rankings

/-! ### An example -/

/-- A server that writes scores as the numbers of their doubles, and knows sums with zero. -/
abbrev numberingScores : ServerScores where
  parse text := (numberingServer.parse text).bind Score.ofDouble?
  print score := numberingServer.print score.value
  add score delta := if score.place = 0 then some delta else if delta.place = 0 then some score else none

theorem parse_numbering (d : Double) :
    @ServerScores.parse numberingScores (numberingPlatform.toCharsDouble d) = Score.ofDouble? d := by
  show (numberingServer.parse (numberingPlatform.toCharsDouble d)).bind Score.ofDouble? = Score.ofDouble? d
  cases hd : d.isNaN with
  | true =>
    rw [numberingServer_agrees.refused d hd, Score.ofDouble?, dif_neg (by rw [hd]; exact Bool.noConfusion)]
    rfl
  | false =>
    rw [numberingServer_agrees.read d hd]
    rfl

theorem numberingScores_passes : @ServerScores.Passes numberingScores numberingPlatform :=
  @ServerScores.Passes.mk numberingScores numberingPlatform parse_numbering fun score =>
    numberingServer_agrees.written score.value score.isNumber

end Redisdal
