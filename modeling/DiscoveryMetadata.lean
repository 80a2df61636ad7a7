import DiscoveryMetadata.Main
import DiscoveryMetadata.Report
import DiscoveryMetadata.Form.Resource
import DiscoveryMetadata.Proofs.Gates.Resource
import DiscoveryMetadata.Proofs.Rebuilding.Resource
import DiscoveryMetadata.Proofs.Strictness.Resource
import DiscoveryMetadata.Proofs.Reading.Alike
import DiscoveryMetadata.Proofs.Reading.Management
import DiscoveryMetadata.Proofs.Reading.Protection
import DiscoveryMetadata.Proofs.Reading.Resource
import DiscoveryMetadata.Proofs.Text.Escape
import DiscoveryMetadata.Proofs.Xml.Event
import DiscoveryMetadata.Proofs.Xml.Proper
import DiscoveryMetadata.Proofs.Xml.Scope
import DiscoveryMetadata.Proofs.Xml.Written
import DiscoveryMetadata.Proofs.Places.Attributes
import DiscoveryMetadata.Proofs.Places.Coverages
import DiscoveryMetadata.Proofs.Places.Management
import DiscoveryMetadata.Proofs.Places.Resource
import DiscoveryMetadata.Proofs.Rollup
import DiscoveryMetadata.Proofs.Warnings.Coverages
import DiscoveryMetadata.Proofs.Warnings.Management
import DiscoveryMetadata.Proofs.Warnings.Resource
import DiscoveryMetadata.Proofs.Attributes.Groups
import DiscoveryMetadata.Proofs.Returning.Agreement
import DiscoveryMetadata.Proofs.Returning.Basic
import DiscoveryMetadata.Proofs.Returning.Management
import DiscoveryMetadata.Proofs.Returning.Protection
import DiscoveryMetadata.Proofs.Returning.Resource
import DiscoveryMetadata.Proofs.Keeping.Resource
import DiscoveryMetadata.Proofs.Output.Equality
import DiscoveryMetadata.Proofs.Output.Resource
import DiscoveryMetadata.Proofs.Versions.Built
import DiscoveryMetadata.Proofs.Session
import DiscoveryMetadata.Proofs.CanonicalOrder
import DiscoveryMetadata.Proofs.Reading.Prefixes
import DiscoveryMetadata.Proofs.OwnVersion.Resource
import DiscoveryMetadata.Proofs.Locators.Resource
import DiscoveryMetadata.Proofs.Naming.Resource
import DiscoveryMetadata.Proofs.Naming.Configured
import DiscoveryMetadata.Proofs.EmptySlots
import DiscoveryMetadata.Proofs.Xml.Resolution
import DiscoveryMetadata.Proofs.Calendar.Days
import DiscoveryMetadata.Proofs.Calendar.Kinds
import DiscoveryMetadata.Proofs.Calendar.Order
import DiscoveryMetadata.Proofs.Multiplicity.Access
import DiscoveryMetadata.Proofs.Multiplicity.Bounds
import DiscoveryMetadata.Proofs.Attributes.Partition
import DiscoveryMetadata.Proofs.Duplicates
import DiscoveryMetadata.Proofs.Xml.Root
import DiscoveryMetadata.Proofs.Xml.Comments
import DiscoveryMetadata.Proofs.Xml.Rereading
import DiscoveryMetadata.Proofs.Places.Builders
import DiscoveryMetadata.Proofs.Attributes.Links
import DiscoveryMetadata.Proofs.Multiplicity.Slots
import DiscoveryMetadata.Proofs.Calendar.Forms
import DiscoveryMetadata.Proofs.Text.Names
