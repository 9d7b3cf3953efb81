import Submarine.Proofs.Object.RoundTrip

namespace Submarine

open Json

theorem OwnerReference.recalls : OwnerReference.reader.Recalls toJson where
  read? r := by
    simp [reader, toJson, Fields.text, Fields.orElse, List.lookup_cons,
      Reader.string_recalls.read?_orNull, Reader.bool_recalls]
  isNull _ := rfl

theorem Json.Reader.read?_wholeSeconds (t : Time.Instant) :
    Reader.wholeSeconds.read? (.string (Time.Rfc3339.render t)) = some t.truncate := by
  have hread (j : Json) : Reader.wholeSeconds.read? j = (Reader.time.read? j).map (·.truncate) :=
    rfl
  rw [hread, Reader.read?_time, Option.map_some]

namespace Metadata

variable {m : Metadata}

def inWholeSeconds (m : Metadata) : Metadata :=
  { m with deletionTimestamp := m.deletionTimestamp.map (·.truncate) }

theorem nodup_members (m : Metadata) : (m.members.map (·.1)).Nodup := by
  simp [members]

theorem read?_toJson (m : Metadata) : reader.read? m.toJson = some m.inWholeSeconds := by
  have htime : m.deletionTimestamp.elim (some none) (Reader.wholeSeconds.orNull.read? ∘
      fun t ↦ Json.string (Time.Rfc3339.render t)) =
        some (m.deletionTimestamp.map (·.truncate)) := by
    cases ht : m.deletionTimestamp with
    | none => rfl
    | some t =>
      have hnull : (Json.string (Time.Rfc3339.render t)).isNull = false := rfl
      simp [Reader.read?_orNull hnull, Reader.read?_wholeSeconds]
  have hrest : (Remainder.fields _).read? (present m.members) = some m.rest :=
    m.rest.read?_fields rfl m.nodup_members
  rw [toJson, reader, Reader.read?_resource m.nodup_members, Fields.read?_seq, hrest]
  simp [members, List.lookup_cons, Reader.string_recalls, Reader.int64_recalls,
    Reader.textTable_recalls, Reader.texts_recalls, OwnerReference.recalls.list, htime,
    inWholeSeconds]

end Metadata

namespace Root

end Root

end Submarine
