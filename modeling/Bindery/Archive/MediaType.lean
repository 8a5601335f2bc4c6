/-
# The media type of an archive

The first entry of an archive says in plain bytes what kind of archive it is.
-/
namespace Bindery.Archive

/-- The name of the entry that says what kind of archive it is. -/
def mediaTypeName : String := "mimetype"

/-- What that entry says. -/
def mediaType : String := "application/epub+zip"

end Bindery.Archive
