import Tablewright.Document.Scalar
import Tablewright.Schema.Basic

/-!
# Reading tables

Tables with their secondary indexes from documents.

* `readTable`: the table of a document, or all problems of the document.
-/

namespace Tablewright.Document

def indexOf : Reader Index :=
  mappingOf "SecondaryIndexInput" fun place entries =>
    Index.mk
      <$> required ⟨"indexName", "index_name"⟩ nonEmptyText place entries
      <*> required ⟨"partitionKey", "partition_key"⟩ nonEmptyText place entries
      <*> optional ⟨"sortKey", "sort_key"⟩ (nullable text) none place entries

/-- A table. -/
def tableOf : Reader Table :=
  mappingOf "TableMetadataInput" fun place entries =>
    Table.mk
      <$> required ⟨"tableName", "table_name"⟩ nonEmptyText place entries
      <*> optional ⟨"tableArn", "table_arn"⟩ (nullable text) none place entries
      <*> optional (.single "region") (nullable text) none place entries
      <*> optional ⟨"globalSecondaryIndexes", "global_secondary_indexes"⟩ (listOf indexOf) [] place entries
      <*> optional ⟨"localSecondaryIndexes", "local_secondary_indexes"⟩ (listOf indexOf) [] place entries

def readTable (document : Value) : Except (List Problem) Table := (tableOf [] document).toExcept

end Tablewright.Document
