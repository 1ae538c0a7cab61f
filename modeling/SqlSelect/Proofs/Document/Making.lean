import SqlSelect.Document.Query
import SqlSelect.Proofs.Query.Call

/-! What the query of a document consists of. -/
namespace SqlSelect

namespace Query

variable {q q' : Query} {schema : Schema}

end Query

namespace Document

variable {d : Document} {schema : Schema} {options : BuildOptions} {q q' : Query}

end Document

end SqlSelect
