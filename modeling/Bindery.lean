import Bindery.Archive.Writer
import Bindery.Book.Summary
import Bindery.Book.Writing
import Bindery.CommandLine
import Bindery.Disk.Listing
import Bindery.Main
import Bindery.Xml.Query
import Bindery.Xml.Reading
import Bindery.Proofs.Success
import Bindery.Proofs.FreshName
import Bindery.Proofs.Numbering
import Bindery.Proofs.PlayOrder
import Bindery.Proofs.Collision
import Bindery.Proofs.EntryPath.Segments
import Bindery.Proofs.EntryPath.Valid
import Bindery.Proofs.EntryPath.Link
import Bindery.Proofs.Xml.Legal
import Bindery.Proofs.Xml.Tag
import Bindery.Proofs.Xml.RoundTrip
import Bindery.Proofs.Xml.Query
import Bindery.Proofs.Book.Legal
import Bindery.Proofs.Spine.Fallback
import Bindery.Proofs.Validation
import Bindery.Proofs.Spine.Sound
import Bindery.Proofs.Layout
import Bindery.Proofs.Layout.Legal
import Bindery.Proofs.Metadata
import Bindery.Proofs.Disk.Walk
import Bindery.Proofs.Document.Package
import Bindery.Proofs.Document.Navigation
import Bindery.Proofs.Document.ReadBack
import Bindery.Proofs.Document.Identified
import Bindery.Proofs.Document.Numbered
import Bindery.Proofs.Document.Parts
import Bindery.Proofs.Edition
import Bindery.Proofs.Edition.Files
import Bindery.Proofs.Edition.Buildable
import Bindery.Proofs.Archive.SafelyNamed
import Bindery.Proofs.Edition.Manifest
import Bindery.Proofs.Edition.Faithful
import Bindery.Proofs.Edition.Identifiers
import Bindery.Proofs.Edition.Navigable
import Bindery.Proofs.Document.Played
import Bindery.Outline.Slots
import Bindery.Proofs.Layout.Fragment
import Bindery.Proofs.Outline
import Bindery.Proofs.Outline.Slots
import Bindery.Proofs.Document.Contents
import Bindery.Proofs.Edition.Carried
import Bindery.Book.Flat
import Bindery.Proofs.Book.Written
import Bindery.Proofs.Outline.Preorder
import Bindery.Proofs.Book.Flat
import Bindery.Proofs.Disk.Home
import Bindery.Proofs.Disk.Find
import Bindery.Proofs.Disk.Descent
import Bindery.Proofs.Disk.Opened
import Bindery.Proofs.Edition.Copied
import Bindery.Proofs.Disk.Location
import Bindery.Proofs.Disk.Base
import Bindery.Proofs.Disk.Moved
import Bindery.Proofs.Edition.Relocated
import Bindery.Proofs.Edition.Reproducible
import Bindery.Proofs.Metadata.Machine
import Bindery.Book.Rearranged
import Bindery.Archive.Calls
import Bindery.Disk.Stops
import Bindery.Recipe.Listed
import Bindery.Proofs.Book.Rearranged
import Bindery.Proofs.Validation.Rearranged
import Bindery.Proofs.Archive.Calls
import Bindery.Proofs.Archive.Packed
import Bindery.Proofs.Disk.Ends
import Bindery.Proofs.Disk.Stops
import Bindery.Proofs.Recipe.Load
import Bindery.Proofs.Spine.Chain
import Bindery.Proofs.EntryPath.Above
import Bindery.Proofs.Disk.Twins
import Bindery.Proofs.Edition.FileTree
import Bindery.Proofs.Metadata.Completed
import Bindery.Proofs.EntryPath.Points
import Bindery.Proofs.EntryPath.Canonical
import Bindery.Outline.Levels
import Bindery.Proofs.Outline.Levels
import Bindery.Proofs.Document.Head
import Bindery.Document.Indexed
import Bindery.Proofs.Document.Indexed
